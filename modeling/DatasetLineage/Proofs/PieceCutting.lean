/-
Module: DatasetLineage.Proofs.PieceCutting
Purpose: Every text is cut into pieces that fit where they stand. Whatever a text begins with, some
  piece fits there, so the text is the spelling of a sequence of pieces that fit; and as such a
  sequence is cut out of its own spelling, it is the one that the text is cut into.
Main exports: exists_takesTail, exists_commentBody, exists_value, Piece.BeginsText,
  exists_beginsText, exists_separated, Piece.separated_ofText
-/
import DatasetLineage.Proofs.PieceSeparation
import Mathlib.Data.List.Induction

namespace DatasetLineage

open Text

/-! ### Ends of pieces -/

section Parts

/-- A word takes on some first part of every text. -/
theorem exists_takesTail (text : List Char) :
    ∃ tail rest, text = tail ++ rest ∧ TakesTail tail rest := by
  induction text with
  | nil =>
      exact ⟨[], [], rfl, rfl⟩
  | cons c text ih =>
      cases goesOn : wordGoesOn (c :: text) with
      | false =>
          exact ⟨[], c :: text, rfl, goesOn⟩
      | true =>
          obtain ⟨tail, rest, rfl, takes⟩ := ih
          exact ⟨c :: tail, rest, rfl, goesOn, takes⟩

/-- A comment is closed at the first `*/` of a text, if there is one. -/
theorem exists_commentBody (text : List Char) :
    ¬ ['*', '/'] <:+: text ∨
      ∃ body rest, text = body ++ '*' :: '/' :: rest ∧ ¬ ['*', '/'] <:+: body := by
  induction text with
  | nil =>
      exact .inl (by simp)
  | cons c text ih =>
      by_cases closes : ['*', '/'] <+: c :: text
      · obtain ⟨rest, same⟩ := closes
        exact .inr ⟨[], rest, same.symm, by simp⟩
      · rcases ih with none | ⟨body, rest, rfl, none⟩
        · left
          rw [List.infix_cons_iff]
          exact fun inside => inside.elim closes none
        · right
          refine ⟨c :: body, rest, rfl, ?_⟩
          rw [List.infix_cons_iff]
          rintro (atFront | later)
          · exact closes (atFront.trans (List.prefix_append (c :: body) _))
          · exact none later

/-- A literal ends at the first delimiter of a text that no second one follows, if there is one. -/
theorem exists_value (delimiter : Char) (text : List Char) :
    (∃ value, text = doubled delimiter value) ∨
      ∃ value rest, text = doubled delimiter value ++ delimiter :: rest ∧
        delimiter ∉ rest.head? := by
  induction text using List.twoStepInduction with
  | nil =>
      exact .inl ⟨[], rfl⟩
  | singleton c =>
      by_cases ends : c = delimiter
      · exact .inr ⟨[], [], by rw [ends]; rfl, by simp⟩
      · exact .inl ⟨[c], by simp [doubled, ends]⟩
  | cons_cons c d text behindBoth behindOne =>
      by_cases ends : c = delimiter
      · subst ends
        by_cases again : d = c
        · subst again
          have pair : ∀ value, doubled d (d :: value) = d :: d :: doubled d value := by
            simp [doubled]
          rcases behindBoth with ⟨value, rfl⟩ | ⟨value, rest, rfl, alone⟩
          · exact .inl ⟨d :: value, (pair value).symm⟩
          · exact .inr ⟨d :: value, rest, by rw [pair]; rfl, alone⟩
        · exact .inr ⟨[], d :: text, rfl, by simpa using again⟩
      · have single : ∀ value, doubled delimiter (c :: value) = c :: doubled delimiter value := by
          simp [doubled, ends]
        rcases behindOne d with ⟨value, same⟩ | ⟨value, rest, same, alone⟩
        · exact .inl ⟨c :: value, by rw [single, same]⟩
        · exact .inr ⟨c :: value, rest, by rw [single, same]; rfl, alone⟩

/-- A text goes on with a class of characters up to the first one that is not in it. -/
theorem exists_run (p : Char → Bool) (text : List Char) :
    ∃ run rest, text = run ++ rest ∧ (∀ c ∈ run, p c = true) ∧
      ∀ c ∈ rest.head?, p c = false := by
  induction text with
  | nil =>
      exact ⟨[], [], rfl, by simp, by simp⟩
  | cons c text ih =>
      cases isIn : p c with
      | false =>
          exact ⟨[], c :: text, rfl, by simp, by simpa using isIn⟩
      | true =>
          obtain ⟨run, rest, rfl, goesOn, ends⟩ := ih
          exact ⟨c :: run, rest, rfl, List.forall_mem_cons.mpr ⟨isIn, goesOn⟩, ends⟩

end Parts

/-- Whether the piece has characters, begins a text and fits there. -/
def Piece.BeginsText (statementStart : Bool) (text : List Char) (piece : Piece) : Prop :=
  piece.spelling ≠ [] ∧
    ∃ rest, text = piece.spelling ++ rest ∧ piece.Fits statementStart rest

/-! ### Pieces at the start of a text -/

section Beginnings

variable {statementStart : Bool} {c : Char}

theorem exists_beginsText_slash (statementStart : Bool) (text : List Char) :
    ∃ piece, Piece.BeginsText statementStart ('/' :: text) piece := by
  cases text with
  | nil =>
      exact ⟨.mark '/', by simp [Piece.spelling], [], rfl, by decide, by simp, by simp, by simp⟩
  | cons d text =>
      by_cases opens : d = '*'
      · subst opens
        rcases exists_commentBody text with none | ⟨body, rest, rfl, none⟩
        · exact ⟨.blockComment text false, by simp [Piece.spelling], [],
            by simp [Piece.spelling], none, .inr rfl⟩
        · exact ⟨.blockComment body true, by simp [Piece.spelling], rest,
            by simp [Piece.spelling], none, .inl rfl⟩
      · exact ⟨.mark '/', by simp [Piece.spelling], d :: text, rfl, by decide,
          by simpa using opens, by simp, by simp⟩

theorem exists_beginsText_star (text : List Char) :
    ∃ piece, Piece.BeginsText true ('*' :: text) piece := by
  by_cases ends : ';' ∈ text
  · obtain ⟨body, rest, rfl, none⟩ := List.eq_append_cons_of_mem ends
    exact ⟨.starComment body true, by simp [Piece.spelling], rest, by simp [Piece.spelling],
      rfl, none, .inl rfl⟩
  · exact ⟨.starComment text false, by simp [Piece.spelling], [], by simp [Piece.spelling],
      rfl, ends, .inr rfl⟩

theorem exists_beginsText_delimiter (isDelimiter : IsDelimiter c) (text : List Char) :
    ∃ piece, Piece.BeginsText statementStart (c :: text) piece := by
  rcases exists_value c text with ⟨value, rfl⟩ | ⟨value, rest, rfl, alone⟩
  · exact ⟨.quoted c value false, by simp [Piece.spelling], [], by simp [Piece.spelling],
      isDelimiter, rfl⟩
  · exact ⟨.quoted c value true, by simp [Piece.spelling], rest, by simp [Piece.spelling],
      isDelimiter, alone⟩

theorem exists_beginsText_letter (starts : isWordStart c = true) (text : List Char) :
    ∃ piece, Piece.BeginsText statementStart (c :: text) piece := by
  obtain ⟨tail, rest, rfl, takes⟩ := exists_takesTail text
  exact ⟨.word (c :: tail), List.cons_ne_nil _ _, rest, rfl, c, tail, .inl rfl, starts, takes⟩

theorem exists_beginsText_ampersand (statementStart : Bool) (text : List Char) :
    ∃ piece, Piece.BeginsText statementStart ('&' :: text) piece := by
  by_cases word : ∃ d more, text = d :: more ∧ isWordStart d = true
  · obtain ⟨d, more, rfl, starts⟩ := word
    obtain ⟨tail, rest, rfl, takes⟩ := exists_takesTail more
    exact ⟨.word ('&' :: d :: tail), List.cons_ne_nil _ _, rest, rfl, d, tail, .inr rfl, starts,
      takes⟩
  · refine ⟨.mark '&', by simp [Piece.spelling], text, rfl, by decide, by simp, by simp, ?_⟩
    intro _ d isNext
    cases text with
    | nil =>
        simp at isNext
    | cons e more =>
        simp at isNext
        subst isNext
        exact Bool.eq_false_iff.mpr fun starts => word ⟨e, more, rfl, starts⟩

theorem exists_beginsText_digit (digit : c.isDigit = true) (text : List Char) :
    ∃ piece, Piece.BeginsText statementStart (c :: text) piece := by
  obtain ⟨run, rest, rfl, goesOn, ends⟩ := exists_run isNumberTail text
  exact ⟨.number (c :: run), List.cons_ne_nil _ _, rest, rfl, c, run, rfl, digit, goesOn, ends⟩

/-- Some piece fits at the beginning of every text that has a character. -/
theorem exists_beginsText (statementStart : Bool) (c : Char) (text : List Char) :
    ∃ piece, Piece.BeginsText statementStart (c :: text) piece := by
  by_cases blank : isBlank c = true
  · exact ⟨.blank c, by simp [Piece.spelling], text, rfl, blank⟩
  by_cases slash : c = '/'
  · exact slash ▸ exists_beginsText_slash statementStart text
  by_cases star : c = '*' ∧ statementStart = true
  · rw [star.1, star.2]
    exact exists_beginsText_star text
  by_cases isDelimiter : IsDelimiter c
  · exact exists_beginsText_delimiter isDelimiter text
  by_cases starts : isWordStart c = true
  · exact exists_beginsText_letter starts text
  by_cases ampersand : c = '&'
  · exact ampersand ▸ exists_beginsText_ampersand statementStart text
  by_cases digit : c.isDigit = true
  · exact exists_beginsText_digit digit text
  by_cases listed : c ∈ marks
  · -- slashes, stars where a statement begins, and ampersands have been seen to above
    refine ⟨.mark c, by simp [Piece.spelling], text, rfl, listed, fun h => absurd h slash, ?_,
      fun h => absurd h ampersand⟩
    exact fun isStar => Bool.eq_false_iff.mpr fun start => star ⟨isStar, start⟩
  · obtain ⟨run, rest, rfl, goesOn, ends⟩ := exists_run isStrange text
    rw [Bool.not_eq_true] at blank starts digit
    exact ⟨.strange c run, by simp [Piece.spelling], rest, rfl,
      ⟨blank, listed, isDelimiter, starts, digit⟩, goesOn, ends⟩

end Beginnings

/-- Every text is the spelling of pieces that fit where they stand. -/
theorem exists_separated (statementStart : Bool) (text : List Char) :
    ∃ pieces, Separated statementStart pieces ∧ spellingOf pieces = text := by
  induction size : text.length using Nat.strongRecOn generalizing statementStart text with
  | ind n ih =>
      cases text with
      | nil =>
          exact ⟨[], trivial, rfl⟩
      | cons c text =>
          obtain ⟨piece, nonempty, rest, spelled, fits⟩ :=
            exists_beginsText statementStart c text
          have shorter : rest.length < n := by
            have := List.length_pos_iff.mpr nonempty
            rw [← size, spelled, List.length_append]
            omega
          obtain ⟨pieces, separated, rfl⟩ :=
            ih rest.length shorter (piece.opensStatement statementStart) rest rfl
          exact ⟨piece :: pieces, ⟨fits, separated⟩, spelled.symm⟩

/-- The pieces of a text fit where they stand. -/
theorem Piece.separated_ofText (text : List Char) : Separated true (Piece.ofText text) := by
  obtain ⟨pieces, separated, spelled⟩ := exists_separated true text
  rwa [← spelled, Piece.ofText_spellingOf separated]

end DatasetLineage
