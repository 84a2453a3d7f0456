/-
Module: DatasetLineage.Proofs.CaseFolding
Purpose: What the case of A to Z does not change. A letter of ASCII and its lower case are in the
  same classes of characters, so a text is read alike with its letters folded; and a character that
  is no such letter stays itself. Folding before lower case is taken makes no difference, not even
  to which sigma ends a word.
Main exports: Text.foldCase, Text.foldCase_eq_iff, Text.toLower_eq_iff, Text.apply_toLower,
  Text.traitsOf_toLower, Text.toLower_of_not_isAlphabetic, Text.lowercase_foldCase
-/
import DatasetLineage.Proofs.CharacterClasses
import DatasetLineage.Proofs.LowercaseForms
import DatasetLineage.Text.AsciiCase
import Mathlib

namespace DatasetLineage.Text

/-- A text with A to Z written as a to z. -/
def foldCase (text : String) : String := String.ofList (foldAscii text.toList)

@[simp] theorem toList_foldCase (text : String) :
    (foldCase text).toList = foldAscii text.toList := String.toList_ofList

@[simp] theorem foldCase_ofList (text : List Char) :
    foldCase (String.ofList text) = String.ofList (foldAscii text) := by
  rw [foldCase, String.toList_ofList]

@[simp] theorem foldAscii_nil : foldAscii [] = [] := rfl

@[simp] theorem foldAscii_cons (c : Char) (text : List Char) :
    foldAscii (c :: text) = c.toLower :: foldAscii text := rfl

@[simp] theorem foldAscii_append (a b : List Char) :
    foldAscii (a ++ b) = foldAscii a ++ foldAscii b := List.map_append

@[simp] theorem head?_foldAscii (text : List Char) :
    (foldAscii text).head? = text.head?.map Char.toLower := List.head?_map

/-- Two texts agree up to case if they fold to one text. -/
theorem foldCase_eq_iff {a b : String} :
    foldCase a = foldCase b ↔ sameUpToAsciiCase a b = true := by
  rw [sameUpToAsciiCase, beq_iff_eq, foldCase, foldCase, String.ofList_inj]

section Characters

theorem toLower_of_not_isAlpha {c : Char} (notLetter : c.isAlpha = false) : c.toLower = c := by
  apply Char.toLower_eq_of_not_isUpper
  intro upper
  rw [Char.isAlpha, upper, Bool.true_or] at notLetter
  exact Bool.noConfusion notLetter

/-- Nothing else is folded to a character that is no letter of ASCII. -/
theorem toLower_eq_iff {c other : Char} (notLetter : other.isAlpha = false) :
    c.toLower = other ↔ c = other := by
  constructor
  · rintro rfl
    rw [Char.isAlpha_toLower_eq_isAlpha] at notLetter
    exact (toLower_of_not_isAlpha notLetter).symm
  · rintro rfl
    exact toLower_of_not_isAlpha notLetter

theorem toLower_beq {c other : Char} (notLetter : other.isAlpha = false) :
    (c.toLower == other) = (c == other) := by
  rw [Bool.eq_iff_iff, beq_iff_eq, beq_iff_eq, toLower_eq_iff notLetter]

/-- Letters of ASCII are in ASCII. -/
theorem toNat_lt_of_isAlpha {c : Char} (letter : c.isAlpha = true) : c.toNat < 128 := by
  simp only [Char.isAlpha, Char.isUpper, Char.isLower, Bool.or_eq_true, Bool.and_eq_true,
    decide_eq_true_eq, UInt32.le_iff_toNat_le, ge_iff_le] at letter
  have upper : 'Z'.val.toNat = 90 := rfl
  have lower : 'z'.val.toNat = 122 := rfl
  have value : c.toNat = c.val.toNat := rfl
  omega

/-- What is alike for each letter of ASCII and its lower case is alike for every character. -/
theorem apply_toLower {α : Type} {f : Char → α}
    (all : ∀ n < 128, f (Char.ofNat n).toLower = f (Char.ofNat n)) (c : Char) :
    f c.toLower = f c := by
  cases letter : c.isAlpha with
  | true =>
      exact forall_ascii (p := fun d => f d.toLower = f d) all (toNat_lt_of_isAlpha letter)
  | false =>
      rw [toLower_of_not_isAlpha letter]

/-- What is asked about single characters. -/
structure Traits where
  digit : Bool
  blank : Bool
  alphabetic : Bool
  numeric : Bool
  cased : Bool
  caseIgnorable : Bool
  lowercaseForm : List Char
deriving DecidableEq

/-- The traits of a character. -/
def traitsOf (c : Char) : Traits :=
  ⟨c.isDigit, isBlank c, isAlphabetic c, isNumeric c, isCased c, isCaseIgnorable c,
    lowercaseForm c⟩

/-- A letter of ASCII has the traits of its lower case. -/
theorem traitsOf_toLower (c : Char) : traitsOf c.toLower = traitsOf c :=
  apply_toLower (by decide +kernel) c

@[simp] theorem isDigit_toLower (c : Char) : c.toLower.isDigit = c.isDigit :=
  congrArg Traits.digit (traitsOf_toLower c)

@[simp] theorem isBlank_toLower (c : Char) : isBlank c.toLower = isBlank c :=
  congrArg Traits.blank (traitsOf_toLower c)

@[simp] theorem isAlphabetic_toLower (c : Char) : isAlphabetic c.toLower = isAlphabetic c :=
  congrArg Traits.alphabetic (traitsOf_toLower c)

@[simp] theorem isNumeric_toLower (c : Char) : isNumeric c.toLower = isNumeric c :=
  congrArg Traits.numeric (traitsOf_toLower c)

@[simp] theorem isCased_toLower (c : Char) : isCased c.toLower = isCased c :=
  congrArg Traits.cased (traitsOf_toLower c)

@[simp] theorem isCaseIgnorable_toLower (c : Char) :
    isCaseIgnorable c.toLower = isCaseIgnorable c :=
  congrArg Traits.caseIgnorable (traitsOf_toLower c)

@[simp] theorem lowercaseForm_toLower (c : Char) : lowercaseForm c.toLower = lowercaseForm c :=
  congrArg Traits.lowercaseForm (traitsOf_toLower c)

/-- A letter of ASCII is a letter. -/
theorem isAlphabetic_of_isAlpha {c : Char} (letter : c.isAlpha = true) : isAlphabetic c = true :=
  forall_ascii (p := fun d => d.isAlpha = true → isAlphabetic d = true) (by decide +kernel)
    (toNat_lt_of_isAlpha letter) letter

theorem toLower_of_not_isAlphabetic {c : Char} (notLetter : isAlphabetic c = false) :
    c.toLower = c := by
  apply toLower_of_not_isAlpha
  rw [Bool.eq_false_iff]
  intro letter
  rw [isAlphabetic_of_isAlpha letter] at notLetter
  exact Bool.noConfusion notLetter

@[simp] theorem foldAscii_foldAscii (text : List Char) :
    foldAscii (foldAscii text) = foldAscii text := by
  simp [foldAscii]

/-- Folding a text does not change with what it agrees up to case. -/
@[simp] theorem sameUpToAsciiCase_foldCase (a b : String) :
    sameUpToAsciiCase a (foldCase b) = sameUpToAsciiCase a b := by
  rw [sameUpToAsciiCase, toList_foldCase, foldAscii_foldAscii, sameUpToAsciiCase]

end Characters

section Lowercase

theorem leadsToCased_foldAscii (text : List Char) :
    leadsToCased (foldAscii text) = leadsToCased text := by
  induction text with
  | nil =>
      rfl
  | cons c rest ih =>
      rw [foldAscii_cons, leadsToCased, leadsToCased, isCaseIgnorable_toLower, isCased_toLower, ih]

theorem lowercaseFrom_foldAscii (afterCased : Bool) (text : List Char) :
    lowercaseFrom afterCased (foldAscii text) = lowercaseFrom afterCased text := by
  induction text generalizing afterCased with
  | nil =>
      rfl
  | cons c rest ih =>
      have sigma : c.toLower = 'Σ' ↔ c = 'Σ' := toLower_eq_iff (by decide)
      simp only [foldAscii_cons, lowercaseFrom, sigma, leadsToCased_foldAscii,
        lowercaseForm_toLower, isCaseIgnorable_toLower, isCased_toLower, ih]

/-- Lower case is the same with the letters of ASCII folded first. -/
@[simp] theorem lowercase_foldCase (text : String) :
    lowercase (foldCase text) = lowercase text := by
  rw [lowercase, toList_foldCase, lowercaseFrom_foldAscii, lowercase]

end Lowercase

end DatasetLineage.Text
