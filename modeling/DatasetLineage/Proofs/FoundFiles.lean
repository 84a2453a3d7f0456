/-
Module: DatasetLineage.Proofs.FoundFiles
Purpose: What is found in a directory. The walk of a tree gives each of its files once, and the
  paths grow when they are compared name by name, so what is in a directory comes in front of a file
  whose name goes on behind that of the directory. Of these files those are read whose extension is
  in the settings, each under its path below the directory.
Main exports: FileTree.HasFile, FileTree.IsProper, FileTree.Walks.mem_iff,
  FileTree.Walks.pairwise_comesBefore, SourceFile.IsReadAt, FindsFiles,
  Input.findsFiles_of_directory
-/
import DatasetLineage.CommandLine.Run
import DatasetLineage.Proofs.PathNames
import Mathlib.Data.List.Forall2

namespace DatasetLineage

namespace FileTree

/-- The files of a tree: a file by itself, and those of the entries of a directory, behind the name
    of the entry. -/
inductive HasFile : FileTree → RelativePath → Option (List UInt8) → Prop where
  | here (bytes : Option (List UInt8)) : HasFile (.file bytes) [] bytes
  | within {entries : List (String × FileTree)} {name : String} {tree : FileTree}
      {path : RelativePath} {bytes : Option (List UInt8)} (entry : (name, tree) ∈ entries)
      (inside : HasFile tree path bytes) : HasFile (.directory entries) (name :: path) bytes

/-- The trees of a file system: in each directory the entries have names, and no two the same. -/
inductive IsProper : FileTree → Prop where
  | file (bytes : Option (List UInt8)) : IsProper (.file bytes)
  | directory {entries : List (String × FileTree)}
      (names : ∀ entry ∈ entries, IsEntryName entry.1) (distinct : (entries.map Prod.fst).Nodup)
      (below : ∀ entry ∈ entries, IsProper entry.2) : IsProper (.directory entries)

/-! ### Files of a tree -/

section Members

variable {tree : FileTree} {path : RelativePath} {bytes : Option (List UInt8)}
variable {walk : FileTree → List (RelativePath × Option (List UInt8))}

/-- A walk gives the files of the tree and no others. -/
theorem Walks.mem_iff (walks : Walks walk) (proper : tree.IsProper) :
    (path, bytes) ∈ walk tree ↔ tree.HasFile path bytes := by
  induction proper generalizing path with
  | file content =>
      rw [walks.file, List.mem_singleton, Prod.mk.injEq]
      constructor
      · rintro ⟨rfl, rfl⟩
        exact .here _
      · rintro ⟨⟩
        exact ⟨rfl, rfl⟩
  | directory names distinct below ih =>
      obtain ⟨sorted, perm, _, walked⟩ := walks.directory _
      rw [walked, List.mem_flatMap]
      constructor
      · rintro ⟨⟨name, below⟩, inDirectory, found⟩
        obtain ⟨⟨inside, _⟩, foundInside, rfl, rfl⟩ := List.mem_map.mp found
        have entry := perm.mem_iff.mp inDirectory
        exact .within entry ((ih _ entry).mp foundInside)
      · intro hasFile
        cases hasFile with
        | within entry inside =>
            exact ⟨_, perm.mem_iff.mpr entry, List.mem_map.mpr ⟨_, (ih _ entry).mpr inside, rfl⟩⟩

theorem HasFile.areNames (hasFile : tree.HasFile path bytes) (proper : tree.IsProper) :
    ∀ name ∈ path, IsEntryName name := by
  induction hasFile with
  | here bytes =>
      simp
  | within entry inside ih =>
      cases proper with
      | directory names distinct below =>
          exact List.forall_mem_cons.mpr ⟨names _ entry, ih (below _ entry)⟩

/-- The files of a directory have a path below it. -/
theorem HasFile.path_ne_nil {entries : List (String × FileTree)}
    (hasFile : (directory entries).HasFile path bytes) : path ≠ [] := by
  cases hasFile with
  | within entry inside =>
      exact List.cons_ne_nil _ _

end Members

/-! ### Order of the files -/

section Order

/-- Whether one file comes before another when the names along their paths are compared one by one
    by their bytes. -/
def ComesBefore {α : Type} (one other : RelativePath × α) : Prop :=
  one.1.map nameBytes < other.1.map nameBytes

/-- A walk gives the files of a tree in the order of their paths. -/
theorem Walks.pairwise_comesBefore {walk : FileTree → List (RelativePath × Option (List UInt8))}
    (walks : Walks walk) {tree : FileTree} (proper : tree.IsProper) :
    (walk tree).Pairwise ComesBefore := by
  induction proper with
  | file bytes =>
      rw [walks.file]
      exact List.pairwise_singleton _ _
  | directory names distinct below ih =>
      obtain ⟨entries, perm, sorted, walked⟩ := walks.directory _
      have apart : entries.Pairwise fun one other => one.1 ≠ other.1 :=
        List.pairwise_map.mp ((perm.map Prod.fst).nodup_iff.mpr distinct)
      rw [walked, List.pairwise_flatMap]
      -- Below one entry the paths share their first name, so the rest decides; below two entries
      -- their first names differ, and the entries are in the order of these.
      constructor
      · intro entry member
        rw [List.pairwise_map]
        exact (ih entry (perm.mem_iff.mp member)).imp fun before =>
          List.cons_lt_cons_iff.mpr (.inr ⟨rfl, before⟩)
      · refine (sorted.and apart).imp fun ⟨notAfter, different⟩ => ?_
        have before : _ < _ := nameBytes_lt (String.not_le.mp fun after =>
          different (String.le_antisymm notAfter after))
        intro one inOne other inOther
        obtain ⟨_, _, rfl⟩ := List.mem_map.mp inOne
        obtain ⟨_, _, rfl⟩ := List.mem_map.mp inOther
        exact List.cons_lt_cons_iff.mpr (.inl before)

end Order

end FileTree

/-- Whether a program file is the one at a path below a directory, with its bytes decoded. -/
def SourceFile.IsReadAt (directory : String) (tree : FileTree) (path : RelativePath)
    (file : SourceFile) : Prop :=
  ∃ bytes, tree.HasFile path (some bytes) ∧
    file = ⟨joinPath directory path, Text.Utf8.decodeLossy bytes⟩

/-- Whether files are those that the settings select in a directory.
    - `each`: they belong one by one to the paths of the files that are selected.
    - `increasing`: they are in the order of the names along their paths, by bytes.
    - `distinct`: no two have one name. -/
structure FindsFiles (settings : Settings) (directory : String) (tree : FileTree)
    (files : List SourceFile) : Prop where
  each : ∃ paths : List RelativePath, paths.Nodup ∧
    (∀ path, path ∈ paths ↔ settings.Selects path ∧ ∃ bytes, tree.HasFile path bytes) ∧
    List.Forall₂ (SourceFile.IsReadAt directory tree) paths files
  increasing : files.Pairwise fun one other =>
    (pathNames one.name).map nameBytes < (pathNames other.name).map nameBytes
  distinct : (files.map SourceFile.name).Nodup

/-! ### Files that are read -/

section Reading

variable {settings : Settings} {directory : String} {entries : List (String × FileTree)}

/-- A step that succeeds everywhere succeeds along a list. -/
theorem mapM_eq_ok {α β ε : Type} {f : α → Except ε β} {g : α → β} {elements : List α}
    (succeeds : ∀ element ∈ elements, f element = .ok (g element)) :
    elements.mapM f = .ok (elements.map g) := by
  induction elements with
  | nil =>
      rfl
  | cons first rest ih =>
      rw [List.forall_mem_cons] at succeeds
      rw [List.mapM_cons, succeeds.1, ih succeeds.2]
      rfl

/-- Elements that are put in a strict order by what belongs to them have different things belonging
    to them. -/
theorem nodup_map_of_increasing {α β : Type} {f : α → β} (key : β → List (List UInt8))
    {elements : List α} (increasing : elements.Pairwise fun a b => key (f a) < key (f b)) :
    (elements.map f).Nodup := by
  rw [List.Nodup, List.pairwise_map]
  refine increasing.imp fun before same => ?_
  rw [same] at before
  exact List.lt_irrefl _ before

/-- The files of a directory that the settings select, with the paths down to them. -/
def selectedFiles (settings : Settings) (directory : String) (tree : FileTree) :
    List (RelativePath × Option (List UInt8)) :=
  tree.files.filter fun found => settings.matchesExtension (joinPath directory found.1)

theorem mem_selectedFiles_iff (proper : (FileTree.directory entries).IsProper)
    {path : RelativePath} {bytes : Option (List UInt8)} :
    (path, bytes) ∈ selectedFiles settings directory (.directory entries) ↔
      settings.Selects path ∧ (FileTree.directory entries).HasFile path bytes := by
  rw [selectedFiles, List.mem_filter, FileTree.walks_files.mem_iff proper, and_comm,
    and_congr_left_iff]
  intro hasFile
  exact settings.matchesExtension_joinPath directory (hasFile.areNames proper) hasFile.path_ne_nil

/-- The program file that is read at a path. -/
def readAt (directory : String) (found : RelativePath × Option (List UInt8)) : SourceFile :=
  ⟨joinPath directory found.1, Text.Utf8.decodeLossy (found.2.getD [])⟩

theorem programFiles_directory (proper : (FileTree.directory entries).IsProper)
    (readable : ∀ path, (FileTree.directory entries).HasFile path none → ¬ settings.Selects path) :
    programFiles settings directory (.directory entries) =
      .ok ((selectedFiles settings directory (.directory entries)).map (readAt directory)) := by
  have reads : ∀ found ∈ selectedFiles settings directory (.directory entries),
      sourceFile (joinPath directory found.1) found.2 = .ok (readAt directory found) := by
    rintro ⟨path, bytes⟩ selected
    obtain ⟨selects, hasFile⟩ := (mem_selectedFiles_iff proper).mp selected
    cases bytes with
    | some bytes =>
        rfl
    | none =>
        exact absurd selects (readable path hasFile)
  rw [← mapM_eq_ok reads, programFiles, List.filter_map, List.mapM_map]
  rfl

theorem pairwise_selectedFiles (proper : (FileTree.directory entries).IsProper) :
    (selectedFiles settings directory (.directory entries)).Pairwise FileTree.ComesBefore :=
  (FileTree.walks_files.pairwise_comesBefore proper).filter _

/-- The names along the paths of program files are in the order of the paths. -/
theorem pairwise_names_readAt (proper : (FileTree.directory entries).IsProper) :
    ((selectedFiles settings directory (.directory entries)).map (readAt directory)).Pairwise
      fun one other =>
        (pathNames one.name).map nameBytes < (pathNames other.name).map nameBytes := by
  rw [List.pairwise_map]
  refine (pairwise_selectedFiles proper).imp_of_mem fun {one other} inOne inOther before => ?_
  have along : ∀ found ∈ selectedFiles settings directory (.directory entries),
      pathNames (readAt directory found).name = pathNames directory ++ found.1 :=
    fun found selected => pathNames_joinPath directory
      (((mem_selectedFiles_iff proper).mp selected).2.areNames proper)
  rw [along one inOne, along other inOther, List.map_append, List.map_append]
  exact List.append_left_lt before

theorem findsFiles_directory (proper : (FileTree.directory entries).IsProper)
    (readable : ∀ path, (FileTree.directory entries).HasFile path none → ¬ settings.Selects path) :
    FindsFiles settings directory (.directory entries)
      ((selectedFiles settings directory (.directory entries)).map (readAt directory)) where
  each := by
    refine ⟨(selectedFiles settings directory (.directory entries)).map Prod.fst, ?_, ?_, ?_⟩
    · exact nodup_map_of_increasing (fun path => path.map nameBytes) (pairwise_selectedFiles proper)
    · intro path
      simp [mem_selectedFiles_iff proper]
    · rw [List.forall₂_map_left_iff, List.forall₂_map_right_iff, List.forall₂_same]
      rintro ⟨path, bytes⟩ selected
      obtain ⟨selects, hasFile⟩ := (mem_selectedFiles_iff proper).mp selected
      cases bytes with
      | some bytes =>
          exact ⟨bytes, hasFile, rfl⟩
      | none =>
          exact absurd selects (readable path hasFile)
  increasing := pairwise_names_readAt proper
  distinct := nodup_map_of_increasing (fun name => (pathNames name).map nameBytes)
    (pairwise_names_readAt proper)

/-- In a directory whose selected files can be read, every selected file is found once and no other,
    in the order of the names along the paths. -/
theorem Input.findsFiles_of_directory {input : Input} {lookup : Lookup}
    (found : lookup input.source = some (.directory entries))
    (proper : (FileTree.directory entries).IsProper)
    (readable : ∀ path, (FileTree.directory entries).HasFile path none → ¬ settings.Selects path) :
    ∃ files, input.loadSources settings lookup = .ok files ∧
      FindsFiles settings input.source (.directory entries) files := by
  refine ⟨_, ?_, findsFiles_directory proper readable⟩
  rw [Input.loadSources, found]
  exact programFiles_directory proper readable

/-- A directory beside a file whose name goes on behind that of the directory, a hidden file, a file
    whose name ends in a dot, and a directory named like a program with an unreadable text in it. -/
def FileTree.jobs : List (String × FileTree) :=
  [("a.sas", .file (some [])), ("a", .directory [("z.SAS", .file (some []))]),
   (".sas", .file (some [])), ("b.", .file (some [])),
   ("c.sas", .directory [("notes.txt", .file none), ("c.d.sas", .file (some []))])]

/-- These entries at one path, and nothing elsewhere. -/
def Lookup.jobs : Lookup := fun path =>
  if path = "jobs" then some (.directory FileTree.jobs) else none

theorem FileTree.isProper_jobs : (FileTree.directory FileTree.jobs).IsProper := by
  refine .directory (by decide) (by decide) ?_
  simp only [FileTree.jobs, List.forall_mem_cons]
  refine ⟨.file _, ?_, .file _, .file _, ?_, by simp⟩
  · exact .directory (by decide) (by decide) (by simpa using .file _)
  · exact .directory (by decide) (by decide) (by simpa using ⟨.file _, .file _⟩)

theorem Input.findsFiles_of_directory_jobs :
    ∃ files, Input.loadSources ⟨"jobs", none, false⟩ {} Lookup.jobs = .ok files ∧
      FindsFiles {} "jobs" (.directory FileTree.jobs) files ∧
      files.map SourceFile.name = ["jobs/a/z.SAS", "jobs/a.sas", "jobs/c.sas/c.d.sas"] := by
  have proper := FileTree.isProper_jobs
  have unreadable : ∀ found ∈ (FileTree.directory FileTree.jobs).files, found.2 = none →
      found.1 = ["c.sas", "notes.txt"] := by decide
  have readable : ∀ path, (FileTree.directory FileTree.jobs).HasFile path none →
      ¬ Settings.Selects {} path := by
    intro path hasFile
    obtain rfl := unreadable _ ((FileTree.walks_files.mem_iff proper).mpr hasFile) rfl
    rw [← Settings.matchesExtension_joinPath {} "" (hasFile.areNames proper) hasFile.path_ne_nil]
    decide
  have computed : Input.loadSources ⟨"jobs", none, false⟩ {} Lookup.jobs =
      .ok [⟨"jobs/a/z.SAS", ""⟩, ⟨"jobs/a.sas", ""⟩, ⟨"jobs/c.sas/c.d.sas", ""⟩] := by rfl
  have atJobs : Lookup.jobs (Input.mk "jobs" none false).source = some (.directory FileTree.jobs) :=
    rfl
  obtain ⟨files, loaded, finds⟩ := Input.findsFiles_of_directory atJobs proper readable
  obtain rfl := Except.ok.inj (computed.symm.trans loaded)
  exact ⟨_, loaded, finds, rfl⟩

end Reading

end DatasetLineage
