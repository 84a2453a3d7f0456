/-
Module: DatasetLineage.CommandLine.FileTree
Purpose: Files and directories as they are found, and the program files among them. A directory is
  walked with its entries in the order of their names, and what is in a directory comes in place
  of that directory.
Main exports: FileTree, FileTree.files, FileTree.Walks, FileTree.walks_files, joinPath,
  FileTree.at?
-/
import DatasetLineage.Collection.Sorted
import DatasetLineage.Settings.Basic

namespace DatasetLineage

/-- A file with its bytes, or none if it cannot be read, or a directory with its named entries. -/
inductive FileTree where
  | file (bytes : Option (List UInt8))
  | directory (entries : List (String × FileTree))

/-- A path below a directory: the names from the directory down. -/
abbrev RelativePath := List String

namespace FileTree

/-- Puts the files found below each entry of a directory in the order of the entries' names. -/
def inNameOrder {α : Type} (found : List (String × List (RelativePath × α))) :
    List (RelativePath × α) :=
  (inOrder (fun a b => a.1 ≤ b.1) found).flatMap fun (name, below) =>
    below.map fun (path, content) => (name :: path, content)

mutual

/-- The files of a tree with their paths. -/
def files : FileTree → List (RelativePath × Option (List UInt8))
  | file bytes => [([], bytes)]
  | directory entries => inNameOrder (entryFiles entries)

/-- The files below each entry of a directory. -/
def entryFiles :
    List (String × FileTree) → List (String × List (RelativePath × Option (List UInt8)))
  | [] => []
  | (name, tree) :: rest => (name, files tree) :: entryFiles rest

end

/-- What is taken for granted about the walk of a tree.
    - `file`: a file by itself is found where it is.
    - `directory`: the entries of a directory are taken in the order of their names, and what is
      found below an entry comes in its place, behind its name. -/
structure Walks (walk : FileTree → List (RelativePath × Option (List UInt8))) : Prop where
  file : ∀ bytes, walk (.file bytes) = [([], bytes)]
  directory : ∀ entries, ∃ sorted : List (String × FileTree),
    sorted.Perm entries ∧ sorted.Pairwise (fun a b => a.1 ≤ b.1) ∧
      walk (.directory entries) = sorted.flatMap fun (name, tree) =>
        (walk tree).map fun (path, bytes) => (name :: path, bytes)

theorem entryFiles_eq_map (entries : List (String × FileTree)) :
    entryFiles entries = entries.map fun entry => (entry.1, entry.2.files) := by
  induction entries with
  | nil =>
      rfl
  | cons entry rest ih =>
      rw [entryFiles, ih]
      rfl

theorem walks_files : Walks files where
  file bytes := by rw [files]
  directory entries := by
    have total (a b : String × FileTree) :
        decide (a.1 ≤ b.1) = true ∨ decide (b.1 ≤ a.1) = true := by
      simpa using String.le_total a.1 b.1
    have trans (a b c : String × FileTree) (first : decide (a.1 ≤ b.1) = true)
        (second : decide (b.1 ≤ c.1) = true) : decide (a.1 ≤ c.1) = true :=
      decide_eq_true (String.le_trans (of_decide_eq_true first) (of_decide_eq_true second))
    have sorted :
        inOrder (fun a b => a.1 ≤ b.1) (entries.map fun entry => (entry.1, entry.2.files)) =
          (inOrder (fun a b => a.1 ≤ b.1) entries).map fun entry => (entry.1, entry.2.files) :=
      inOrder_map (fun _ _ => rfl) entries
    refine ⟨inOrder (fun a b => a.1 ≤ b.1) entries, inOrder_perm _ entries, ?_, ?_⟩
    · exact (pairwise_inOrder total trans entries).imp of_decide_eq_true
    · rw [files, inNameOrder, entryFiles_eq_map, sorted, List.flatMap_map]

/-- The way down from a directory along the parts of a path. Empty parts and single dots stay where
    they are, two dots go back up; all three need a directory. -/
def descend : List FileTree → FileTree → List String → Option FileTree
  | _, here, [] => some here
  | _, file _, _ :: _ => none
  | above, directory entries, part :: rest =>
    if part = "" ∨ part = "." then descend above (directory entries) rest
    else if part = ".." then
      match above with
      | [] => none
      | parent :: further => descend further parent rest
    else match entries.lookup part with
      | some entry => descend (directory entries :: above) entry rest
      | none => none

/-- The file or directory at a relative path. -/
def at? (root : FileTree) (path : String) : Option FileTree :=
  match path.toList with
  | [] => none
  | '/' :: _ => none
  | chars => descend [] root ((Settings.pathParts chars).map String.ofList)

end FileTree

/-- A path below a directory as it is shown: behind the path of the directory, which may end in a
    slash already. -/
def joinPath (directory : String) (path : RelativePath) : String :=
  path.foldl
    (fun joined name => if joined.toList.getLast? = some '/' then joined ++ name
      else joined ++ "/" ++ name)
    directory

end DatasetLineage
