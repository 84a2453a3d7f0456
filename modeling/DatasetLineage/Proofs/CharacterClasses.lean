/-
Module: DatasetLineage.Proofs.CharacterClasses
Purpose: Which classes of characters exclude one another, and so what a character begins. Facts
  about all characters are told from the tables: a character of a class is in one of the intervals
  of its table, and the intervals are looked through.
Main exports: Text.CodePoints.exists_of_holds, Text.forall_ascii, Text.isAlphabetic_of_isBlank,
  IsDelimiter, opening_of_isWordStart, opening_of_isDigit, opening_of_mem_marks,
  opening_of_strange
-/
import DatasetLineage.Program.Piece.Scan

namespace DatasetLineage

open Text

namespace Text

/-- A code point of a set is in one of its intervals. -/
theorem CodePoints.exists_of_holds {set : CodePoints} {n : Nat} (held : set.holds n = true) :
    ∃ interval ∈ set, interval.1 ≤ n ∧ n ≤ interval.2 := by
  induction set with
  | nil =>
      exact absurd held Bool.false_ne_true
  | cons interval rest ih =>
      obtain ⟨first, last⟩ := interval
      unfold holds at held
      split at held
      · exact absurd held Bool.false_ne_true
      · rename_i notBelow
        rw [Bool.or_eq_true, decide_eq_true_eq] at held
        rcases held with inside | later
        · exact ⟨_, List.mem_cons_self, Nat.le_of_not_lt notBelow, inside⟩
        · obtain ⟨other, listed, within⟩ := ih later
          exact ⟨other, List.mem_cons_of_mem _ listed, within⟩

/-- What holds of each code point of the intervals of a set holds of the set. -/
theorem CodePoints.forall_of_holds {set : CodePoints} {p : Nat → Bool} {n : Nat}
    (held : set.holds n = true)
    (all : (set.all fun interval =>
      (List.range (interval.2 - interval.1 + 1)).all fun k => p (interval.1 + k)) = true) :
    p n = true := by
  obtain ⟨interval, listed, above, below⟩ := exists_of_holds held
  have inInterval := List.all_eq_true.mp (List.all_eq_true.mp all interval listed)
    (n - interval.1) (List.mem_range.mpr (by omega))
  rwa [Nat.add_sub_cancel' above] at inInterval

/-- What holds of the first 128 code points holds of every character of ASCII. -/
theorem forall_ascii {p : Char → Prop} (all : ∀ n < 128, p (Char.ofNat n)) {c : Char}
    (ascii : c.toNat < 128) : p c := by
  have known := all c.toNat ascii
  rwa [Char.ofNat_toNat] at known

theorem ne_of_isBlank {c other : Char} (blank : isBlank c = true)
    (notBlank : isBlank other = false) : c ≠ other := by
  intro same
  rw [same, notBlank] at blank
  cases blank

theorem isAlphabetic_of_isBlank {c : Char} (blank : isBlank c = true) :
    isAlphabetic c = false := by
  have none := CodePoints.forall_of_holds (p := fun n => !alphabetics.holds n) blank
    (by decide +kernel)
  simpa [isAlphabetic] using none

end Text

/-- The delimiters of string literals. -/
def IsDelimiter (c : Char) : Prop := c = apostrophe ∨ c = quotationMark

theorem isWordStart_of_isBlank {c : Char} (blank : isBlank c = true) : isWordStart c = false := by
  rw [isWordStart, isAlphabetic_of_isBlank blank, Bool.false_or, beq_eq_false_iff_ne]
  exact ne_of_isBlank blank rfl

/-- What opens a word is no blank, mark or delimiter. -/
theorem opening_of_isWordStart {c : Char} (starts : isWordStart c = true)
    (statementStart : Bool) : opening statementStart c = .inl (.word [c]) := by
  have notBlank : isBlank c ≠ true := by
    intro blank
    rw [isWordStart_of_isBlank blank] at starts
    exact Bool.false_ne_true starts
  have notListed : ∀ other, isWordStart other = false → c ≠ other := by
    intro other notStart same
    rw [← same, starts] at notStart
    exact Bool.noConfusion notStart
  have notSlash : c ≠ '/' := notListed '/' (by decide)
  have notStar : c ≠ '*' := notListed '*' (by decide)
  have notApostrophe : c ≠ apostrophe := notListed apostrophe (by decide)
  have notQuotation : c ≠ quotationMark := notListed quotationMark (by decide)
  simp [opening, notBlank, notSlash, notStar, notApostrophe, notQuotation, starts]

theorem opening_of_isBlank {c : Char} (blank : isBlank c = true) (statementStart : Bool) :
    opening statementStart c = .inr (.blank c) := by
  rw [opening, if_pos blank]

theorem opening_of_isDelimiter {c : Char} (isDelimiter : IsDelimiter c) (statementStart : Bool) :
    opening statementStart c = .inl (.quoted c []) := by
  rcases isDelimiter with rfl | rfl
  · cases statementStart <;> decide
  · cases statementStart <;> decide

theorem toNat_lt_of_isDigit {c : Char} (digit : c.isDigit = true) : c.toNat < 128 := by
  have bounds : 48 ≤ c.toNat ∧ c.toNat ≤ 57 := by
    simpa [Char.isDigit, UInt32.le_iff_toNat_le] using digit
  omega

theorem isNumeric_of_isDigit {c : Char} (digit : c.isDigit = true) : isNumeric c = true := by
  have all : ∀ n < 128, (Char.ofNat n).isDigit = true → isNumeric (Char.ofNat n) = true := by
    decide +kernel
  exact forall_ascii (p := fun d => d.isDigit = true → isNumeric d = true) all
    (toNat_lt_of_isDigit digit) digit

/-- A digit is a numeral of ASCII, which opens nothing but a number. -/
theorem opening_of_isDigit {c : Char} (digit : c.isDigit = true) (statementStart : Bool) :
    opening statementStart c = .inl (.number [c]) := by
  have all : ∀ n < 128, (Char.ofNat n).isDigit = true →
      ∀ start, opening start (Char.ofNat n) = .inl (.number [Char.ofNat n]) := by
    decide +kernel
  exact forall_ascii (p := fun d => d.isDigit = true → ∀ start,
    opening start d = .inl (.number [d])) all (toNat_lt_of_isDigit digit) digit statementStart

/-- A mark that cannot begin anything longer is a piece at once. -/
theorem opening_of_mem_marks {c : Char} {statementStart : Bool} (listed : c ∈ marks)
    (notSlash : c ≠ '/') (notStar : c = '*' → statementStart = false) (notAmpersand : c ≠ '&') :
    opening statementStart c = .inr (.mark c) := by
  have all : (marks.all fun d => [true, false].all fun start =>
      d == '/' || d == '&' || (d == '*' && start) ||
        decide (opening start d = .inr (.mark d))) = true := by
    decide +kernel
  have known := List.all_eq_true.mp (List.all_eq_true.mp all c listed) statementStart (by simp)
  simp [notSlash, notAmpersand] at known
  rcases known with ⟨star, atStart⟩ | opened
  · rw [notStar star] at atStart
    exact absurd atStart Bool.false_ne_true
  · exact opened

theorem opening_slash (statementStart : Bool) : opening statementStart '/' = .inl .slash := by
  cases statementStart <;> decide

theorem opening_ampersand (statementStart : Bool) :
    opening statementStart '&' = .inl .ampersand := by
  cases statementStart <;> decide

/-- What has no place in a program opens a run of such characters. -/
theorem opening_of_strange {c : Char} (notBlank : isBlank c = false) (notMark : c ∉ marks)
    (notDelimiter : ¬ IsDelimiter c) (notStart : isWordStart c = false)
    (notDigit : c.isDigit = false) (statementStart : Bool) :
    opening statementStart c = .inl (.strange c []) := by
  have notSlash : c ≠ '/' := fun same => notMark (same ▸ by decide)
  have notStar : c ≠ '*' := fun same => notMark (same ▸ by decide)
  have notAmpersand : c ≠ '&' := fun same => notMark (same ▸ by decide)
  unfold IsDelimiter at notDelimiter
  simp [opening, notBlank, notSlash, notStar, notAmpersand, notDelimiter, notStart, notDigit,
    notMark]

end DatasetLineage
