/-
Module: DatasetLineage.Proofs.WordKinds
Purpose: What words become. A word that spells a keyword up to ASCII case is that keyword; the
  name of a dataset, plain or qualified, is an identifier. Words of both kinds are of one piece
  wherever the text behind them does not go on with them.
Main exports: Spells, IsIdentifier, IsName, IsSourceName, EndsWord, IsWord, wordKind_of_spells,
  datasetOption?_of_spells, wordKind_of_isName, isReadOption_of_isSourceName
-/
import DatasetLineage.Program.Statement.Option
import DatasetLineage.Proofs.PieceSeparation

namespace DatasetLineage

open Text

/-- Whether a word spells a name, up to the case of A to Z. -/
def Spells (name : String) (word : List Char) : Prop :=
  sameUpToAsciiCase name (String.ofList word) = true

/-- Whether a word is an identifier: a letter or an underscore, then letters, numerals and
    underscores. -/
def IsIdentifier : List Char → Prop
  | [] => False
  | first :: tail => isWordStart first = true ∧ isPlainWord (first :: tail) = true

instance : DecidablePred IsIdentifier
  | [] => .isFalse id
  | first :: tail =>
    inferInstanceAs (Decidable (isWordStart first = true ∧ isPlainWord (first :: tail) = true))

/-- Whether a text is an identifier, a dot and a further identifier. -/
def IsQualified (name : String) : Prop :=
  ∃ library member, name.toList = library ++ '.' :: member ∧ IsIdentifier library ∧
    IsIdentifier member

/-- The names of datasets: identifiers other than keywords, and qualified names. -/
def IsName (name : String) : Prop :=
  (IsIdentifier name.toList ∧ Keyword.ofText? name = none) ∨ IsQualified name

/-- The names of datasets that a read statement can name: a plain one is none of the options of
    such a statement. -/
def IsSourceName (name : String) : Prop :=
  (IsIdentifier name.toList ∧ Keyword.ofText? name = none ∧ isReadOption name = false) ∨
    IsQualified name

instance (name : String) (word : List Char) : Decidable (Spells name word) :=
  inferInstanceAs (Decidable (sameUpToAsciiCase name (String.ofList word) = true))

theorem IsSourceName.isName {name : String} (source : IsSourceName name) : IsName name := by
  rcases source with ⟨identifier, notKeyword, _⟩ | qualified
  · exact .inl ⟨identifier, notKeyword⟩
  · exact .inr qualified

theorem IsIdentifier.isPlainWord {word : List Char} (identifier : IsIdentifier word) :
    isPlainWord word = true := by
  cases word with
  | nil =>
      exact identifier.elim
  | cons first tail =>
      exact identifier.2

theorem spells_iff {name : String} {word : List Char} :
    Spells name word ↔ foldAscii name.toList = foldAscii word := by
  rw [Spells, sameUpToAsciiCase, beq_iff_eq, String.toList_ofList]

/-! ### Letters of names -/

section Letters

/-- A character that folds to one of ASCII is one of ASCII. -/
theorem toNat_lt_of_toLower {c : Char} (ascii : c.toLower.toNat < 128) : c.toNat < 128 := by
  unfold Char.toLower at ascii
  split at ascii
  · rename_i upper
    have below : c.toNat ≤ 90 := upper.2
    omega
  · exact ascii

theorem isAlphabetic_of_toLower {c : Char} (letter : c.toLower.isLower = true) :
    isAlphabetic c = true := by
  have ascii : c.toLower.toNat < 128 := by
    have bounds := Bool.and_eq_true_iff.mp letter
    have atMost : c.toLower.toNat ≤ 122 :=
      UInt32.le_iff_toNat_le.mp (of_decide_eq_true bounds.2)
    omega
  have all : ∀ n < 128, (Char.ofNat n).toLower.isLower = true →
      isAlphabetic (Char.ofNat n) = true := by
    decide +kernel
  exact forall_ascii (p := fun d => d.toLower.isLower = true → isAlphabetic d = true) all
    (toNat_lt_of_toLower ascii) letter

/-- A word that spells a name of letters consists of letters. -/
theorem isAlphabetic_of_spells {name : String} {word : List Char} (spells : Spells name word)
    (letters : ∀ d ∈ foldAscii name.toList, d.isLower = true) :
    ∀ c ∈ word, isAlphabetic c = true := by
  intro c member
  apply isAlphabetic_of_toLower
  apply letters
  rw [spells_iff.mp spells]
  exact List.mem_map.mpr ⟨c, member, rfl⟩

theorem isIdentifier_of_letters {name : String} {word : List Char} (spells : Spells name word)
    (letters : ∀ d ∈ foldAscii name.toList, d.isLower = true)
    (nonempty : foldAscii name.toList ≠ []) : IsIdentifier word := by
  have alphabetic := isAlphabetic_of_spells spells letters
  cases word with
  | nil =>
      rw [spells_iff.mp spells] at nonempty
      exact nonempty rfl
  | cons first tail =>
      constructor
      · rw [isWordStart, alphabetic first List.mem_cons_self, Bool.true_or]
      · rw [isPlainWord, List.all_eq_true]
        intro c member
        rw [isAlphanumeric, alphabetic c member, Bool.true_or, Bool.true_or]

theorem Keyword.letters_name (keyword : Keyword) :
    ∀ d ∈ foldAscii keyword.name.toList, d.isLower = true := by
  apply List.all_eq_true.mp
  cases keyword <;> decide

theorem DatasetOption.letters_name (option : DatasetOption) :
    ∀ d ∈ foldAscii option.name.toList, d.isLower = true := by
  apply List.all_eq_true.mp
  cases option <;> decide

theorem Keyword.isIdentifier_of_spells {keyword : Keyword} {word : List Char}
    (spells : Spells keyword.name word) : IsIdentifier word := by
  apply isIdentifier_of_letters spells keyword.letters_name
  cases keyword <;> decide

theorem DatasetOption.isIdentifier_of_spells {option : DatasetOption} {word : List Char}
    (spells : Spells option.name word) : IsIdentifier word := by
  apply isIdentifier_of_letters spells option.letters_name
  cases option <;> decide

end Letters

/-! ### Kinds of words -/

section Kinds

/-- What a word spells is found if no two things are spelled alike. -/
theorem find?_eq_of_spells {α : Type} {nameOf : α → String} {a : α} {all : List α}
    {word : List Char}
    (different : ∀ b, foldAscii (nameOf b).toList = foldAscii (nameOf a).toList → b = a)
    (listed : a ∈ all) (spells : Spells (nameOf a) word) :
    (all.find? fun b => sameUpToAsciiCase (nameOf b) (String.ofList word)) = some a := by
  cases found : all.find? fun b => sameUpToAsciiCase (nameOf b) (String.ofList word) with
  | none =>
      rw [List.find?_eq_none] at found
      exact absurd spells (found a listed)
  | some b =>
      have found' := List.find?_some found
      have spells' : Spells (nameOf b) word := found'
      have same := (spells_iff.mp spells').trans (spells_iff.mp spells).symm
      rw [different b same]

theorem Keyword.ofText?_of_spells {keyword : Keyword} {word : List Char}
    (spells : Spells keyword.name word) :
    Keyword.ofText? (String.ofList word) = some keyword := by
  refine find?_eq_of_spells ?_ ?_ spells
  · intro other
    cases other <;> cases keyword <;> decide
  · cases keyword <;> decide

/-- A word that spells a keyword is that keyword. -/
theorem wordKind_of_spells {keyword : Keyword} {word : List Char}
    (spells : Spells keyword.name word) : wordKind word = .keyword keyword := by
  have plain := (Keyword.isIdentifier_of_spells spells).isPlainWord
  rw [wordKind, Keyword.ofText?_of_spells spells]
  simp [plain]

theorem DatasetOption.find?_of_spells {option : DatasetOption} {word : List Char}
    (spells : Spells option.name word) :
    (DatasetOption.all.find? fun other =>
      sameUpToAsciiCase other.name (String.ofList word)) = some option := by
  refine find?_eq_of_spells ?_ ?_ spells
  · intro other
    cases other <;> cases option <;> decide
  · cases option <;> decide

/-- OUT and BASE are no keywords. -/
theorem wordKind_of_spells_output {option : DatasetOption} {word : List Char}
    (spells : Spells option.name word) (output : option.isInput = false) :
    wordKind word = .identifier (String.ofList word) := by
  have different : ∀ keyword : Keyword,
      foldAscii keyword.name.toList ≠ foldAscii option.name.toList := by
    intro keyword
    revert output
    cases option <;> cases keyword <;> decide
  have notKeyword : Keyword.ofText? (String.ofList word) = none := by
    rw [Keyword.ofText?, List.find?_eq_none]
    intro keyword _ spells'
    exact different keyword ((spells_iff.mp spells').trans (spells_iff.mp spells).symm)
  rw [wordKind, notKeyword]

/-- A token whose word spells a dataset option names that option. -/
theorem datasetOption?_of_spells {option : DatasetOption} {word : List Char} {token : Token}
    (spells : Spells option.name word) (kind : token.kind = wordKind word) :
    datasetOption? token = some option := by
  cases input : option.isInput with
  | true =>
      have isData : option = .data := by
        revert input
        cases option <;> decide
      subst isData
      have isKeyword : wordKind word = .keyword .data := wordKind_of_spells spells
      rw [datasetOption?, kind, isKeyword]
  | false =>
      rw [datasetOption?, kind, wordKind_of_spells_output spells input]
      exact DatasetOption.find?_of_spells spells

theorem not_isPlainWord_of_dot {word : List Char} (dot : '.' ∈ word) :
    isPlainWord word = false := by
  rw [isPlainWord, List.all_eq_false]
  exact ⟨'.', dot, by decide⟩

/-- A word with a character that keywords do not have is an identifier. -/
theorem wordKind_of_not_isPlainWord {word : List Char} (notPlain : isPlainWord word = false) :
    wordKind word = .identifier (String.ofList word) := by
  unfold wordKind
  split
  · rw [notPlain]
    rfl
  · rfl

/-- The options of a read statement are plain words. -/
theorem isPlainWord_of_isReadOption {name : String} (option : isReadOption name = true) :
    isPlainWord name.toList = true := by
  obtain ⟨option, listed, same⟩ := List.any_eq_true.mp option
  have letters : ∀ option ∈ readOptions, foldAscii option.toList ≠ [] ∧
      (foldAscii option.toList).all Char.isLower = true := by
    decide
  obtain ⟨nonempty, lower⟩ := letters option listed
  have spells : Spells option name.toList := by
    rwa [Spells, String.ofList_toList]
  exact (isIdentifier_of_letters spells (List.all_eq_true.mp lower) nonempty).isPlainWord

theorem isReadOption_of_not_isPlainWord {name : String}
    (notPlain : isPlainWord name.toList = false) : isReadOption name = false := by
  apply Bool.eq_false_iff.mpr
  intro option
  rw [isPlainWord_of_isReadOption option] at notPlain
  cases notPlain

theorem IsQualified.dot_mem {name : String} (qualified : IsQualified name) :
    '.' ∈ name.toList := by
  obtain ⟨library, member, text, _⟩ := qualified
  rw [text]
  exact List.mem_append_right library List.mem_cons_self

/-- The name of a dataset is an identifier of that name. -/
theorem wordKind_of_isName {name : String} (isName : IsName name) :
    wordKind name.toList = .identifier name := by
  rcases isName with ⟨_, notKeyword⟩ | qualified
  · rw [wordKind, String.ofList_toList, notKeyword]
  · rw [wordKind_of_not_isPlainWord (not_isPlainWord_of_dot qualified.dot_mem),
      String.ofList_toList]

theorem isReadOption_of_isSourceName {name : String} (source : IsSourceName name) :
    isReadOption name = false := by
  rcases source with ⟨_, _, notOption⟩ | qualified
  · exact notOption
  · exact isReadOption_of_not_isPlainWord (not_isPlainWord_of_dot qualified.dot_mem)

end Kinds

/-! ### Ends of words -/

section Ends

/-- Whether no word goes on with a text, because of its first character. -/
def EndsWord (rest : List Char) : Prop := ∀ c ∈ rest.head?, isWordTail c = false ∧ c ≠ '.'

/-- Whether a text is a word wherever it stands in front of what ends words. -/
def IsWord (spelling : List Char) : Prop := ∀ rest, EndsWord rest → IsWordBefore rest spelling

theorem wordGoesOn_of_endsWord {rest : List Char} (ends : EndsWord rest) :
    wordGoesOn rest = false := by
  cases rest with
  | nil =>
      rfl
  | cons c rest =>
      have first := ends c rfl
      simp [wordGoesOn, first.1, first.2]

theorem endsWord_of_head {c : Char} (notTail : isWordTail c = false) (notDot : c ≠ '.')
    (rest : List Char) : EndsWord (c :: rest) := by
  intro d isFirst
  cases isFirst
  exact ⟨notTail, notDot⟩

theorem takesTail_append {front back rest : List Char} (plain : ∀ c ∈ front, isWordTail c = true)
    (takes : TakesTail back rest) : TakesTail (front ++ back) rest := by
  induction front with
  | nil =>
      exact takes
  | cons c front ih =>
      rw [List.forall_mem_cons] at plain
      refine ⟨?_, ih plain.2⟩
      simp [wordGoesOn, plain.1]

theorem takesTail_of_endsWord {tail rest : List Char} (plain : ∀ c ∈ tail, isWordTail c = true)
    (ends : EndsWord rest) : TakesTail tail rest := by
  have takes : TakesTail (tail ++ []) rest := takesTail_append plain (wordGoesOn_of_endsWord ends)
  rwa [List.append_nil] at takes

theorem isWordTail_of_isWordStart {c : Char} (starts : isWordStart c = true) :
    isWordTail c = true := by
  rw [isWordStart, Bool.or_eq_true] at starts
  rcases starts with letter | underscore
  · simp [isWordTail, isAlphanumeric, letter]
  · simp [isWordTail, underscore]

/-- A word goes on with characters of words and with dots, a dot at the end of them if there is
    another one behind it. -/
theorem takesTail_of_dots {tail rest : List Char}
    (goesOn : ∀ c ∈ tail, isWordTail c = true ∨ c = '.')
    (last : '.' ∈ tail.getLast? → '.' ∈ rest.head?) (stops : wordGoesOn rest = false) :
    TakesTail tail rest := by
  induction tail with
  | nil =>
      exact stops
  | cons c tail ih =>
      rw [List.forall_mem_cons] at goesOn
      -- a dot needs a character behind it, from the tail or from the rest
      have behind : c = '.' → ∃ d ∈ (tail ++ rest).head?, isWordTail d = true ∨ d = '.' := by
        rintro rfl
        cases tail with
        | nil =>
            exact ⟨'.', last rfl, .inr rfl⟩
        | cons d tail =>
            exact ⟨d, rfl, goesOn.2 d List.mem_cons_self⟩
      have later : TakesTail tail rest := by
        apply ih goesOn.2
        intro isDot
        cases tail with
        | nil =>
            cases isDot
        | cons d tail =>
            exact last (by rwa [List.getLast?_cons_cons])
      refine ⟨?_, later⟩
      rcases goesOn.1 with plain | isDot
      · simp [wordGoesOn, plain]
      · obtain ⟨d, isNext, goes⟩ := behind isDot
        rw [Option.mem_def] at isNext
        simpa [wordGoesOn, isDot, isNext] using .inr goes

/-- What a word goes on with are characters of words and dots. -/
theorem isWordTail_or_dot_of_takesTail {c : Char} {tail rest : List Char}
    (takes : TakesTail tail rest) (member : c ∈ tail) : isWordTail c = true ∨ c = '.' := by
  induction tail with
  | nil =>
      cases member
  | cons first tail ih =>
      obtain ⟨goesOn, later⟩ := takes
      rcases List.mem_cons.mp member with rfl | inTail
      · rw [wordGoesOn, Bool.or_eq_true, Bool.and_eq_true, beq_iff_eq] at goesOn
        exact goesOn.imp_right And.left
      · exact ih later inTail

theorem isWordTail_of_isPlainWord {word : List Char} (plain : isPlainWord word = true) :
    ∀ c ∈ word, isWordTail c = true := by
  intro c member
  have known := List.all_eq_true.mp plain c member
  rw [isWordTail, known, Bool.true_or]

/-- An identifier has a first character, which begins a word. -/
theorem IsIdentifier.exists_cons {word : List Char} (identifier : IsIdentifier word) :
    ∃ first tail, word = first :: tail ∧ isWordStart first = true ∧
      (∀ c ∈ first :: tail, isWordTail c = true) := by
  cases word with
  | nil =>
      exact identifier.elim
  | cons first tail =>
      exact ⟨first, tail, rfl, identifier.1, isWordTail_of_isPlainWord identifier.2⟩

theorem IsIdentifier.isWord {word : List Char} (identifier : IsIdentifier word) :
    IsWord word := by
  obtain ⟨first, tail, rfl, starts, plain⟩ := identifier.exists_cons
  rw [List.forall_mem_cons] at plain
  intro rest ends
  exact ⟨first, tail, .inl rfl, starts, takesTail_of_endsWord plain.2 ends⟩

theorem IsQualified.isWord {name : String} (qualified : IsQualified name) :
    IsWord name.toList := by
  obtain ⟨library, member, text, isLibrary, isMember⟩ := qualified
  obtain ⟨first, tail, rfl, starts, plain⟩ := isLibrary.exists_cons
  obtain ⟨first', tail', rfl, _, plain'⟩ := isMember.exists_cons
  rw [List.forall_mem_cons] at plain
  intro rest ends
  have takesMember : TakesTail (first' :: tail') rest := takesTail_of_endsWord plain' ends
  -- the dot belongs to the word because the member stands behind it
  have takesDot : TakesTail ('.' :: first' :: tail') rest := by
    refine ⟨?_, takesMember⟩
    simp [wordGoesOn, plain' first' List.mem_cons_self]
  rw [text]
  exact ⟨first, tail ++ '.' :: first' :: tail', .inl rfl, starts,
    takesTail_append plain.2 takesDot⟩

theorem IsName.isWord {name : String} (isName : IsName name) : IsWord name.toList := by
  rcases isName with ⟨identifier, _⟩ | qualified
  · exact identifier.isWord
  · exact qualified.isWord

end Ends

end DatasetLineage
