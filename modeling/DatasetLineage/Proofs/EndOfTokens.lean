/-
Module: DatasetLineage.Proofs.EndOfTokens
Purpose: The end of a token sequence is a hard end. All that is read of a sequence are the tokens in
  front of the first one that stands for the end, and that one, because a message may point there.
  So what stands behind it changes nothing, and a sequence without such a token is read as if one
  stood at the place of its last token.
Main exports: endToken_concat, Segment.ofTokens_congr, Parsed.ofTokens_congr, Parsed.ofTokens_ends
-/
import DatasetLineage.Proofs.StepBoundaries

namespace DatasetLineage

section Ends

variable {front behind tokens others : List Token} {stop : Token}

/-- The first end token of a sequence is its end. -/
theorem endToken_concat (noEnd : ∀ token ∈ front, token.isEnd = false) (isEnd : stop.isEnd = true)
    (behind : List Token) : endToken (front ++ stop :: behind) = stop := by
  have notEmpty : stop :: behind ≠ [] := List.cons_ne_nil stop behind
  rw [endToken_append noEnd notEmpty, endToken, List.find?_cons_of_pos isEnd]

/-- In front of the first end token stand the tokens that are no end tokens. -/
theorem takeWhile_notEnd_append (noEnd : ∀ token ∈ front, token.isEnd = false)
    (ends : ∀ token ∈ behind.head?, token.isEnd = true) :
    (front ++ behind).takeWhile (!·.isEnd) = front := by
  have inside : ∀ token ∈ front, (!token.isEnd) = true := by
    intro token member
    simp [noEnd token member]
  have outside : behind.takeWhile (!·.isEnd) = [] := by
    cases behind with
    | nil =>
        rfl
    | cons stop behind =>
        have isEnd : stop.isEnd = true := ends stop rfl
        simp [isEnd]
  rw [List.takeWhile_append_of_pos inside, outside, List.append_nil]

/-- Segments are told by the tokens in front of the end, and by the end. -/
theorem Segment.ofTokens_congr
    (sameFront : tokens.takeWhile (!·.isEnd) = others.takeWhile (!·.isEnd))
    (sameEnd : endToken tokens = endToken others) :
    Segment.ofTokens tokens = Segment.ofTokens others := by
  unfold Segment.ofTokens
  rw [sameFront, sameEnd]

/-- Sequences that agree in front of their ends, and in these, are read alike. -/
theorem Parsed.ofTokens_congr
    (sameFront : tokens.takeWhile (!·.isEnd) = others.takeWhile (!·.isEnd))
    (sameEnd : endToken tokens = endToken others) :
    Parsed.ofTokens tokens = Parsed.ofTokens others := by
  rw [ofTokens_eq_ofSegments, ofTokens_eq_ofSegments, Segment.ofTokens_congr sameFront sameEnd]

/-- Without an end token, the end is made up at the place of the last token. -/
theorem endToken_of_noEnd (noEnd : ∀ token ∈ front, token.isEnd = false) :
    endToken front = Token.endAt ((front.getLast?.map Token.position).getD .start) := by
  have none : front.find? Token.isEnd = none := by
    apply List.find?_eq_none.mpr
    intro token member
    simp [noEnd token member]
  rw [endToken, none]

end Ends

namespace Parsed

/-- What stands behind the first end token is not read, and the lack of an end token is as good as
    one at the place of the last token. -/
theorem ofTokens_ends (front : List Token) (noEnd : ∀ token ∈ front, token.isEnd = false) :
    (∀ (stop : Token) (behind : List Token), stop.isEnd = true →
      ofTokens (front ++ [stop] ++ behind) = ofTokens (front ++ [stop])) ∧
    ofTokens front =
      ofTokens (front ++ [Token.endAt ((front.getLast?.map Token.position).getD .start)]) := by
  constructor
  · intro stop behind isEnd
    rw [List.append_assoc, List.singleton_append]
    apply ofTokens_congr
    · rw [takeWhile_notEnd_append noEnd (by simp [isEnd]),
        takeWhile_notEnd_append noEnd (by simp [isEnd])]
    · rw [endToken_concat noEnd isEnd, endToken_concat noEnd isEnd]
  · generalize place : (front.getLast?.map Token.position).getD .start = last
    have isEnd : (Token.endAt last).isEnd = true := rfl
    apply ofTokens_congr
    · have alone : front.takeWhile (!·.isEnd) = front := by
        have whole : (front ++ []).takeWhile (!·.isEnd) = front :=
          takeWhile_notEnd_append noEnd (by simp)
        rwa [List.append_nil] at whole
      rw [alone, takeWhile_notEnd_append noEnd (by simp [isEnd])]
    · rw [endToken_of_noEnd noEnd, place, endToken_concat noEnd isEnd]

/-- A procedure option whose value is missing at the end, which is not the token made up for it, in
    front of tokens that would give the value and close the step. -/
theorem ofTokens_ends_missing_value :
    let column := Position.mk 1
    let front : List Token :=
      [⟨.keyword .proc, "proc", column 1⟩, ⟨.identifier "sort", "sort", column 6⟩,
        ⟨.identifier "out", "out", column 11⟩, ⟨.mark '=', "=", column 14⟩]
    let stop : Token := ⟨.endOfText, "", ⟨2, 5⟩⟩
    let behind : List Token :=
      [⟨.identifier "a", "a", column 16⟩, ⟨.mark ';', ";", column 17⟩,
        ⟨.keyword .run, "run", column 19⟩, ⟨.mark ';', ";", column 22⟩]
    (∀ token ∈ front, token.isEnd = false) ∧ stop.isEnd = true ∧
      ofTokens (front ++ [stop] ++ behind) = ofTokens (front ++ [stop]) ∧
      ofTokens front = ofTokens (front ++ [Token.endAt (column 14)]) := by
  intro column front stop behind
  have noEnd : ∀ token ∈ front, token.isEnd = false := by decide
  exact ⟨noEnd, rfl, (ofTokens_ends front noEnd).1 stop behind rfl, (ofTokens_ends front noEnd).2⟩

end Parsed

end DatasetLineage
