/-
Module: DatasetLineage.CommandLine.OptionSyntax
Purpose: What is taken for granted about the arguments of a command, apart from the way in which
  they are read: how an option may be written, where its value stands, and which arguments are
  operands. `readArguments` reads arguments like this.
Main exports: StandsAlone, OptionName.Spells, ReadsOptions, readsOptions_readArguments
-/
import DatasetLineage.CommandLine.Arguments

namespace DatasetLineage

/-- Whether an argument can be an operand or a value by itself: there is nothing behind a dash at
    its start. -/
def StandsAlone (argument : String) : Prop :=
  ∀ c rest, argument.toList ≠ '-' :: c :: rest

/-- How an option is written in one argument, with the value that stands there.
    - `long`, `longEquals`: by its name, and with its value behind an equals sign.
    - `letter`, `letterEquals`, `letterJoined`: by its letter, and with its value behind an equals
      sign or behind the letter itself. -/
inductive OptionName.Spells (name : OptionName) : List Char → Option (List Char) → Prop where
  | long : Spells name ('-' :: '-' :: name.long) none
  | longEquals (takes : name.takesValue = true) (value : List Char) :
      Spells name ('-' :: '-' :: (name.long ++ '=' :: value)) (some value)
  | letter {c : Char} (its : name.letter? = some c) : Spells name ['-', c] none
  | letterEquals {c : Char} (its : name.letter? = some c) (value : List Char) :
      Spells name ('-' :: c :: '=' :: value) (some value)
  | letterJoined {c : Char} (its : name.letter? = some c) {first : Char} (noEquals : first ≠ '=')
      (value : List Char) : Spells name ('-' :: c :: first :: value) (some (first :: value))

/-- What is taken for granted about the arguments of a command with some options.
    - `nothing`: there may be none.
    - `operand`: an argument that stands alone is an operand.
    - `separator`: behind two dashes every argument is one.
    - `joined`, `apart`: an option that takes a value has it in its own argument or in the next one,
      which then stands alone.
    - `flag`: an option that takes no value is complete.
    - `missing`, `unknown`: nothing is read if a value is missing, or if an argument with a dash is
      no option. -/
structure ReadsOptions (options : List OptionName)
    (read : List String → Option (List Argument)) : Prop where
  nothing : read [] = some []
  operand : ∀ argument rest, StandsAlone argument →
    read (argument :: rest) = (read rest).map (.operand argument :: ·)
  separator : ∀ rest, read ("--" :: rest) = some (rest.map .operand)
  joined : ∀ name ∈ options, ∀ argument value rest, name.Spells argument.toList (some value) →
    read (argument :: rest) = (read rest).map (.option name (some (String.ofList value)) :: ·)
  apart : ∀ name ∈ options, ∀ argument value rest, name.takesValue = true →
    name.Spells argument.toList none → StandsAlone value →
    read (argument :: value :: rest) = (read rest).map (.option name (some value) :: ·)
  flag : ∀ name ∈ options, ∀ argument rest, name.takesValue = false →
    name.Spells argument.toList none →
    read (argument :: rest) = (read rest).map (.option name none :: ·)
  missing : ∀ name ∈ options, ∀ argument rest, name.takesValue = true →
    name.Spells argument.toList none → (∀ value ∈ rest.head?, ¬ StandsAlone value) →
    read (argument :: rest) = none
  unknown : ∀ argument rest, ¬ StandsAlone argument → argument ≠ "--" →
    (∀ name ∈ options, ∀ value, ¬ name.Spells argument.toList value) →
    read (argument :: rest) = none

/-! ### Names and letters of options -/

section Names

variable {options : List OptionName} {name : OptionName} {argument : String}

theorem OptionName.eq_of_long_eq {a b : OptionName} (same : a.long = b.long) : a = b := by
  cases a <;> cases b <;> first | rfl | exact absurd same (by decide)

theorem OptionName.eq_of_letter?_eq {a b : OptionName} {c : Char} (one : a.letter? = some c)
    (other : b.letter? = some c) : a = b := by
  have same : a.letter? = b.letter? := one.trans other.symm
  have hasLetter : a.letter? ≠ none := one ▸ Option.some_ne_none c
  revert same hasLetter
  cases a <;> cases b <;> decide

theorem OptionName.takesValue_of_letter? {c : Char} (its : name.letter? = some c) :
    name.takesValue = true := by
  cases name <;> first | rfl | cases its

theorem OptionName.letter?_ne_dash {c : Char} (its : name.letter? = some c) : c ≠ '-' := by
  rintro rfl
  revert its
  cases name <;> decide

theorem OptionName.long_ne_nil (name : OptionName) : name.long ≠ [] := by
  cases name <;> exact List.cons_ne_nil _ _

/-- The name of an option has no equals sign. -/
theorem OptionName.long_plain (name : OptionName) :
    ∀ c ∈ name.long, decide (c ≠ '=') = true := by
  have all : name.long.all (fun c => decide (c ≠ '=')) = true := by
    cases name <;> rfl
  exact List.all_eq_true.mp all

/-- The one element for which a function has a value is the first one for which it has. -/
theorem find?_eq_some_of_unique {α β : Type} [BEq β] [LawfulBEq β] {f : α → β}
    {all : List α} {a : α} {b : β} (member : a ∈ all) (isValue : f a = b)
    (unique : ∀ other, f other = b → other = a) : all.find? (f · == b) = some a := by
  have isSome : (all.find? (f · == b)).isSome = true :=
    List.find?_isSome.mpr ⟨a, member, beq_iff_eq.mpr isValue⟩
  obtain ⟨found, isFound⟩ := Option.isSome_iff_exists.mp isSome
  rw [isFound, unique found (eq_of_beq (List.find?_some (p := (f · == b)) isFound))]

theorem find?_long (known : name ∈ options) :
    (options.find? fun option => option.long == name.long) = some name :=
  find?_eq_some_of_unique known rfl fun _ => OptionName.eq_of_long_eq

theorem find?_letter {c : Char} (known : name ∈ options) (its : name.letter? = some c) :
    (options.find? fun option => option.letter? == some c) = some name :=
  find?_eq_some_of_unique known its fun _ same => OptionName.eq_of_letter?_eq same its

end Names

/-! ### Shapes of arguments -/

section Shapes

variable {options : List OptionName} {name : OptionName} {argument : String}

theorem argumentShape_of_standsAlone (alone : StandsAlone argument) :
    argumentShape options argument = .complete (.operand argument) := by
  unfold argumentShape
  split
  · next same =>
      exact absurd same (alone _ _)
  · next same =>
      exact absurd same (alone _ _)
  · next same =>
      exact absurd same (alone _ _)
  · rfl

theorem argumentShape_word {word : List Char} (written : argument.toList = '-' :: '-' :: word)
    (notEmpty : word ≠ []) :
    argumentShape options argument = match word.dropWhile (· ≠ '=') with
      | _ :: value => longShape options (word.takeWhile (· ≠ '=')) (some value)
      | [] => longShape options word none := by
  obtain ⟨c, rest, rfl⟩ := List.exists_cons_of_ne_nil notEmpty
  rw [argumentShape, written]
  rfl

theorem argumentShape_letter {c : Char} {rest : List Char}
    (written : argument.toList = '-' :: c :: rest) (noDash : c ≠ '-') :
    argumentShape options argument = letterShape options c rest := by
  unfold argumentShape
  split
  · next same =>
      exact absurd (by simp [written] at same; exact same.1) noDash
  · next same =>
      exact absurd (by simp [written] at same; exact same.1) noDash
  · next same =>
      simp only [written, List.cons.injEq, true_and] at same
      rw [same.1, same.2]
  · next other =>
      exact absurd written (other _ _)

/-- An option whose value stands in its own argument is complete. -/
theorem argumentShape_of_spells_some {value : List Char} (known : name ∈ options)
    (spells : name.Spells argument.toList (some value)) :
    argumentShape options argument = .complete (.option name (some (String.ofList value))) := by
  generalize written : argument.toList = chars at spells
  cases spells with
  | longEquals takes =>
      have plain := name.long_plain
      rw [argumentShape_word written (by simp), List.dropWhile_append_of_pos plain,
        List.takeWhile_append_of_pos plain]
      simp [longShape, find?_long known, takes]
  | letterEquals its =>
      rw [argumentShape_letter written (OptionName.letter?_ne_dash its), letterShape,
        find?_letter known its]
      rfl
  | letterJoined its noEquals =>
      rw [argumentShape_letter written (OptionName.letter?_ne_dash its), letterShape,
        find?_letter known its]
      simp [noEquals]

/-- An option without a value in its own argument awaits one if it takes one. -/
theorem argumentShape_of_spells_none (known : name ∈ options)
    (spells : name.Spells argument.toList none) :
    argumentShape options argument =
      if name.takesValue then .awaiting name else .complete (.option name none) := by
  generalize written : argument.toList = chars at spells
  cases spells with
  | long =>
      have plain := name.long_plain
      have noRest : name.long.dropWhile (· ≠ '=') = [] := by
        rw [← List.append_nil name.long, List.dropWhile_append_of_pos plain]
        rfl
      rw [argumentShape_word written name.long_ne_nil, noRest]
      cases takes : name.takesValue <;> simp [longShape, find?_long known, takes]
  | letter its =>
      rw [argumentShape_letter written (OptionName.letter?_ne_dash its), letterShape,
        find?_letter known its, OptionName.takesValue_of_letter? its]
      rfl

/-- A word behind two dashes by which no option is written is unknown. -/
theorem argumentShape_of_foreign_word {word : List Char}
    (written : argument.toList = '-' :: '-' :: word) (notEmpty : word ≠ [])
    (foreign : ∀ name ∈ options, ∀ value, ¬ name.Spells ('-' :: '-' :: word) value) :
    argumentShape options argument = .unknown := by
  have parts : word.takeWhile (· ≠ '=') ++ word.dropWhile (· ≠ '=') = word :=
    List.takeWhile_append_dropWhile
  rw [argumentShape_word written notEmpty]
  split
  · next first value behind =>
      have isEquals : first = '=' := by
        have head := List.head?_dropWhile_not (fun c : Char => decide (c ≠ '=')) word
        rw [behind] at head
        simpa using head
      rw [behind, isEquals] at parts
      unfold longShape
      split
      · rfl
      · next option isFound =>
          have same : (option.long == word.takeWhile (· ≠ '=')) = true :=
            List.find?_some (p := (OptionName.long · == word.takeWhile (· ≠ '='))) isFound
          have known : option ∈ options := List.mem_of_find?_eq_some isFound
          -- an option that takes no value cannot have one behind an equals sign
          cases takes : option.takesValue with
          | true =>
              refine absurd (OptionName.Spells.longEquals takes value) ?_
              rw [eq_of_beq same, parts]
              exact foreign option known (some value)
          | false =>
              rfl
  · have noName : (options.find? fun option => option.long == word) = none := by
      rw [List.find?_eq_none]
      intro name known same
      obtain rfl := eq_of_beq same
      exact foreign name known none .long
    rw [longShape, noName]

theorem argumentShape_of_foreign_letter {c : Char} {rest : List Char}
    (written : argument.toList = '-' :: c :: rest) (noDash : c ≠ '-')
    (foreign : ∀ name ∈ options, ∀ value, ¬ name.Spells ('-' :: c :: rest) value) :
    argumentShape options argument = .unknown := by
  have noName : (options.find? fun option => option.letter? == some c) = none := by
    rw [List.find?_eq_none]
    intro name known same
    have its := eq_of_beq same
    cases rest with
    | nil =>
        exact foreign name known none (.letter its)
    | cons first value =>
        by_cases isEquals : first = '='
        · exact foreign name known (some value) (isEquals ▸ .letterEquals its value)
        · exact foreign name known (some (first :: value)) (.letterJoined its isEquals value)
  rw [argumentShape_letter written noDash, letterShape, noName]

/-- An argument that is neither alone nor a separator nor an option is unknown. -/
theorem argumentShape_of_unknown (notAlone : ¬ StandsAlone argument) (noSeparator : argument ≠ "--")
    (foreign : ∀ name ∈ options, ∀ value, ¬ name.Spells argument.toList value) :
    argumentShape options argument = .unknown := by
  obtain ⟨c, rest, written⟩ : ∃ c rest, argument.toList = '-' :: c :: rest := by
    simpa [StandsAlone] using notAlone
  rw [written] at foreign
  by_cases isDash : c = '-'
  · subst isDash
    have notEmpty : rest ≠ [] := by
      rintro rfl
      exact noSeparator (String.toList_inj.mp written)
    exact argumentShape_of_foreign_word written notEmpty foreign
  · exact argumentShape_of_foreign_letter written isDash foreign

/-- Only an argument that stands alone can be a value by itself. -/
theorem argumentShape_of_not_standsAlone (notAlone : ¬ StandsAlone argument) :
    argumentShape [] argument = .separator ∨ argumentShape [] argument = .unknown := by
  by_cases isSeparator : argument = "--"
  · exact .inl (isSeparator ▸ rfl)
  · exact .inr (argumentShape_of_unknown notAlone isSeparator (by simp))

theorem eq_of_argumentShape_separator (separator : argumentShape options argument = .separator) :
    argument = "--" := by
  unfold argumentShape at separator
  split at separator
  · next written =>
      exact String.toList_inj.mp written
  · unfold longShape at separator
    grind
  · unfold letterShape at separator
    grind
  · cases separator

end Shapes

/-- The arguments of a command are read as they should be. -/
theorem readsOptions_readArguments (options : List OptionName) :
    ReadsOptions options (readArguments options none) where
  nothing := rfl
  operand argument rest alone := by
    rw [readArguments, argumentShape_of_standsAlone alone]
  separator rest := rfl
  joined name known argument value rest spells := by
    rw [readArguments, argumentShape_of_spells_some known spells]
  apart name known argument value rest takes spells alone := by
    rw [readArguments, argumentShape_of_spells_none known spells, if_pos takes]
    simp only
    rw [readArguments, argumentShape_of_standsAlone alone]
  flag name known argument rest takes spells := by
    rw [readArguments, argumentShape_of_spells_none known spells, takes]
    rfl
  missing name known argument rest takes spells notAlone := by
    rw [readArguments, argumentShape_of_spells_none known spells, if_pos takes]
    cases rest with
    | nil =>
        rfl
    | cons value rest =>
        simp only
        rcases argumentShape_of_not_standsAlone (notAlone value rfl) with separator | unknown
        · rw [readArguments, separator]
        · rw [readArguments, unknown]
  unknown argument rest notAlone noSeparator foreign := by
    rw [readArguments, argumentShape_of_unknown notAlone noSeparator foreign]

end DatasetLineage
