/-
Module: DatasetLineage.Proofs.PathNames
Purpose: The names along a path, their order, and the extension of the last one. The order of names
  by code points is the order by the bytes of their encoding. A path that is put together from a
  directory and names below it has the names of the directory followed by these, whether or not the
  directory ends in a slash. The extension of a path is what stands behind the last dot of its last
  name, unless nothing stands in front of that dot.
Main exports: nameBytes, nameBytes_lt, pathNames, IsEntryName, pathNames_joinPath, HasExtension,
  extension?_eq_some_iff, Settings.Selects, Settings.matchesExtension_joinPath
-/
import DatasetLineage.CommandLine.FileTree
import Mathlib.Data.List.TakeWhile
import Mathlib.Tactic.SplitIfs

namespace DatasetLineage

/-! ### Names by their bytes -/

section Bytes

/-- The bytes of a name. -/
def nameBytes (name : String) : List UInt8 := name.toUTF8.data.toList

theorem nameBytes_eq (name : String) :
    nameBytes name = name.toList.flatMap String.utf8EncodeChar := by
  rw [nameBytes, ← String.ofList_toList (s := name), String.toUTF8_eq_toByteArray,
    String.toByteArray_ofList, List.utf8Encode, List.data_toByteArray, String.toList_ofList]

/-- Of two characters the one with the smaller code point has the smaller encoding, whatever stands
    behind the encodings. -/
theorem utf8EncodeChar_append_lt {c d : Char} (before : c < d) (behind otherBehind : List UInt8) :
    String.utf8EncodeChar c ++ behind < String.utf8EncodeChar d ++ otherBehind := by
  have smaller : c.val.toNat < d.val.toNat := UInt32.lt_iff_toNat_lt.mp before
  have bound : d.val.toNat < 0x110000 := by
    rcases d.valid with below | ⟨_, below⟩
    · exact Nat.lt_trans below (by decide)
    · exact below
  rw [String.utf8EncodeChar.eq_1, String.utf8EncodeChar.eq_1]
  generalize c.val.toNat = m at smaller
  generalize d.val.toNat = n at smaller bound
  -- A longer encoding has a greater first byte. Encodings of one length have the digits of the code
  -- points to the base 64 in their bytes, the first of them in front.
  split_ifs <;>
    simp (disch := omega) only [List.cons_append, List.nil_append, List.cons_lt_cons_iff,
      UInt8.lt_iff_toNat_lt, ← UInt8.toNat_inj, UInt8.toNat_ofNat', Nat.mod_eq_of_lt] <;>
    omega

theorem flatMap_utf8EncodeChar_lt {one other : List Char} (before : one < other) :
    one.flatMap String.utf8EncodeChar < other.flatMap String.utf8EncodeChar := by
  induction before with
  | nil =>
      rename_i c rest
      obtain ⟨byte, bytes, encoded⟩ :=
        List.exists_cons_of_ne_nil (String.utf8EncodeChar_ne_nil (c := c))
      rw [List.flatMap_nil, List.flatMap_cons, encoded]
      exact List.nil_lt_cons _ _
  | rel smaller =>
      rw [List.flatMap_cons, List.flatMap_cons]
      exact utf8EncodeChar_append_lt smaller _ _
  | cons _ ih =>
      rw [List.flatMap_cons, List.flatMap_cons]
      exact List.append_left_lt ih

/-- The order by code points is the order by bytes. -/
theorem nameBytes_lt {one other : String} (before : one < other) :
    nameBytes one < nameBytes other := by
  rw [nameBytes_eq, nameBytes_eq]
  exact flatMap_utf8EncodeChar_lt (String.lt_iff.mp before)

end Bytes

/-! ### Parts of a path -/

section Parts

variable {text name : List Char}

theorem pathParts_ne_nil (text : List Char) : Settings.pathParts text ≠ [] := by
  cases text with
  | nil =>
      exact List.cons_ne_nil _ _
  | cons c text =>
      rw [Settings.pathParts, List.foldr_cons]
      split
      · exact List.cons_ne_nil _ _
      · split <;> exact List.cons_ne_nil _ _

theorem pathParts_slash (text : List Char) :
    Settings.pathParts ('/' :: text) = [] :: Settings.pathParts text := rfl

/-- The parts around a slash are those in front of it and those behind it. -/
theorem pathParts_append_slash (front text : List Char) :
    Settings.pathParts (front ++ '/' :: text) =
      Settings.pathParts front ++ Settings.pathParts text := by
  induction front with
  | nil =>
      exact pathParts_slash text
  | cons c front ih =>
      by_cases isSlash : c = '/'
      · rw [isSlash, List.cons_append, pathParts_slash, ih, pathParts_slash, List.cons_append]
      · obtain ⟨part, rest, parts⟩ := List.exists_cons_of_ne_nil (pathParts_ne_nil front)
        rw [parts] at ih
        simp only [Settings.pathParts] at ih parts ⊢
        rw [List.cons_append, List.foldr_cons, if_neg isSlash, ih, List.foldr_cons,
          if_neg isSlash, parts]
        rfl

theorem pathParts_of_noSlash (noSlash : '/' ∉ name) : Settings.pathParts name = [name] := by
  induction name with
  | nil =>
      rfl
  | cons c name ih =>
      rw [List.mem_cons, not_or] at noSlash
      have parts := ih noSlash.2
      rw [Settings.pathParts] at parts ⊢
      rw [List.foldr_cons, if_neg (Ne.symm noSlash.1), parts]

end Parts

/-- The names along a path. -/
def pathNames (path : String) : List String :=
  ((Settings.pathParts path.toList).filter (· ≠ [])).map String.ofList

/-- What an entry of a directory may be named: neither an empty text, nor a single dot or two dots,
    nor a text with a slash. -/
structure IsEntryName (name : String) : Prop where
  notEmpty : name ≠ ""
  notHere : name ≠ "."
  notAbove : name ≠ ".."
  noSlash : '/' ∉ name.toList

instance (name : String) : Decidable (IsEntryName name) :=
  decidable_of_iff (name ≠ "" ∧ name ≠ "." ∧ name ≠ ".." ∧ '/' ∉ name.toList)
    ⟨fun ⟨notEmpty, notHere, notAbove, noSlash⟩ => ⟨notEmpty, notHere, notAbove, noSlash⟩,
      fun ⟨notEmpty, notHere, notAbove, noSlash⟩ => ⟨notEmpty, notHere, notAbove, noSlash⟩⟩

/-! ### Paths below a directory -/

section Joined

variable {name : String} {path : RelativePath}

theorem pathNames_append_slash (front text : String) :
    pathNames (front ++ "/" ++ text) = pathNames front ++ pathNames text := by
  have slash : (front ++ "/" ++ text).toList = front.toList ++ '/' :: text.toList := by simp
  rw [pathNames, slash, pathParts_append_slash, List.filter_append, List.map_append]
  rfl

theorem IsEntryName.pathNames_eq (isName : IsEntryName name) : pathNames name = [name] := by
  have notEmpty : name.toList ≠ [] := fun empty =>
    isName.notEmpty (String.toList_eq_nil_iff.mp empty)
  rw [pathNames, pathParts_of_noSlash isName.noSlash]
  simp [notEmpty]

/-- One name behind a path adds itself to the names along it, whether or not the path ends in a
    slash. -/
theorem pathNames_joinPath_singleton (directory : String) (isName : IsEntryName name) :
    pathNames (joinPath directory [name]) = pathNames directory ++ [name] := by
  rw [joinPath, List.foldl_cons, List.foldl_nil]
  split
  · next endsInSlash =>
      obtain ⟨front, split⟩ := List.getLast?_eq_some_iff.mp endsInSlash
      have opened : directory = String.ofList front ++ "/" ++ "" := by
        rw [← String.toList_inj, split]
        simp
      rw [opened, String.append_empty, pathNames_append_slash, isName.pathNames_eq,
        ← String.append_empty (s := _ ++ "/"), pathNames_append_slash]
      simp [pathNames, Settings.pathParts]
  · rw [pathNames_append_slash, isName.pathNames_eq]

theorem joinPath_cons (directory name : String) (path : RelativePath) :
    joinPath directory (name :: path) = joinPath (joinPath directory [name]) path := rfl

/-- The names along a path below a directory come behind those of the directory. -/
theorem pathNames_joinPath (directory : String) (areNames : ∀ name ∈ path, IsEntryName name) :
    pathNames (joinPath directory path) = pathNames directory ++ path := by
  induction path generalizing directory with
  | nil =>
      exact (List.append_nil _).symm
  | cons name path ih =>
      rw [List.forall_mem_cons] at areNames
      rw [joinPath_cons, ih _ areNames.2, pathNames_joinPath_singleton directory areNames.1,
        List.append_assoc, List.singleton_append]

end Joined

/-! ### Extensions -/

section Extensions

variable {name extension : String}

/-- Whether an extension stands behind the last dot of a name, with something in front of the
    dot. -/
def HasExtension (name extension : String) : Prop :=
  ∃ stem, stem ≠ "" ∧ name = stem ++ "." ++ extension ∧ '.' ∉ extension.toList

theorem fileName?_eq_of_pathNames {path : String} {names : List String} (isName : IsEntryName name)
    (along : pathNames path = names ++ [name]) : Settings.fileName? path = some name.toList := by
  have parts : (Settings.pathParts path.toList).filter (· ≠ []) =
      names.map String.toList ++ [name.toList] := by
    have texts := congrArg (List.map String.toList) along
    simpa [pathNames, Function.comp_def] using texts
  have notHere : name.toList ≠ ['.'] := fun here => isName.notHere (String.toList_inj.mp here)
  have notAbove : name.toList ≠ ['.', '.'] := fun above =>
    isName.notAbove (String.toList_inj.mp above)
  have last : ((Settings.pathParts path.toList).filter
      fun part => part ≠ [] ∧ part ≠ ['.']).getLast? = some name.toList := by
    have both : ((Settings.pathParts path.toList).filter fun part => part ≠ [] ∧ part ≠ ['.']) =
        ((Settings.pathParts path.toList).filter (· ≠ [])).filter (· ≠ ['.']) := by
      rw [List.filter_filter]
      simp [Bool.and_comm]
    rw [both, parts, List.filter_append]
    simp [notHere]
  rw [Settings.fileName?, last]
  exact if_neg notAbove

/-- A path has the extension of its last name. -/
theorem extension?_eq_some_iff {path : String}
    (isName : Settings.fileName? path = some name.toList) :
    Settings.extension? path = some extension ↔ HasExtension name extension := by
  rw [Settings.extension?, isName]
  dsimp only
  constructor
  · intro found
    have whole := List.takeWhile_append_dropWhile (p := (· ≠ '.')) (l := name.toList.reverse)
    have noDot : '.' ∉ name.toList.reverse.takeWhile (· ≠ '.') := by
      intro member
      simpa using List.mem_takeWhile_imp member
    generalize name.toList.reverse.takeWhile (· ≠ '.') = ending at found whole noDot
    split at found
    · next c stem behind =>
        obtain rfl := Option.some.inj found
        rw [behind] at whole
        refine ⟨String.ofList (c :: stem).reverse, by simp, ?_, by simpa using noDot⟩
        rw [← String.toList_inj, ← List.reverse_reverse name.toList, ← whole]
        simp
    · exact absurd found.symm (Option.some_ne_none _)
  · rintro ⟨stem, notEmpty, rfl, noDot⟩
    have noDots : ∀ c ∈ extension.toList.reverse, decide (c ≠ '.') = true := by
      intro c member
      exact decide_eq_true fun isDot => noDot (isDot ▸ List.mem_reverse.mp member)
    have reversed : (stem ++ "." ++ extension).toList.reverse =
        extension.toList.reverse ++ '.' :: stem.toList.reverse := by simp
    obtain ⟨c, rest, begins⟩ : ∃ c rest, stem.toList.reverse = c :: rest :=
      List.exists_cons_of_ne_nil (by simpa using notEmpty)
    rw [reversed, List.takeWhile_append_of_pos noDots, List.dropWhile_append_of_pos noDots, begins]
    simp

/-- Whether the last name of a path below a directory has one of the extensions in the settings, up
    to ASCII case. -/
def Settings.Selects (settings : Settings) (path : RelativePath) : Prop :=
  ∃ name extension wanted, path.getLast? = some name ∧ HasExtension name extension ∧
    wanted ∈ settings.extensions ∧ Text.sameUpToAsciiCase extension wanted = true

theorem Settings.matchesExtension_joinPath (settings : Settings) (directory : String)
    {path : RelativePath} (areNames : ∀ name ∈ path, IsEntryName name) (notEmpty : path ≠ []) :
    settings.matchesExtension (joinPath directory path) = true ↔ settings.Selects path := by
  obtain ⟨front, name, rfl⟩ : ∃ front name, path = front ++ [name] := by
    simpa [notEmpty] using List.eq_nil_or_concat path
  have along : pathNames (joinPath directory (front ++ [name])) =
      (pathNames directory ++ front) ++ [name] := by
    rw [pathNames_joinPath directory areNames, List.append_assoc]
  have isName := fileName?_eq_of_pathNames (areNames name (by simp)) along
  have last : (front ++ [name]).getLast? = some name := by simp
  have extension_iff : ∀ extension, Settings.extension? (joinPath directory (front ++ [name])) =
      some extension ↔ HasExtension name extension := fun _ => extension?_eq_some_iff isName
  rw [Settings.matchesExtension]
  constructor
  · intro isMatch
    split at isMatch
    · next extension found =>
        obtain ⟨wanted, isWanted, same⟩ := List.any_eq_true.mp isMatch
        exact ⟨name, extension, wanted, last, (extension_iff extension).mp found, isWanted, same⟩
    · exact absurd isMatch Bool.false_ne_true
  · rintro ⟨other, extension, wanted, lastOther, has, isWanted, same⟩
    obtain rfl : other = name := Option.some.inj (lastOther.symm.trans last)
    rw [(extension_iff extension).mpr has]
    exact List.any_eq_true.mpr ⟨wanted, isWanted, same⟩

end Extensions

end DatasetLineage
