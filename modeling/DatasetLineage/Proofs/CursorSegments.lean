/-
Module: DatasetLineage.Proofs.CursorSegments
Purpose: Reading statements from a cursor is reading the segments of the tokens. A semicolon or the
  end stops a statement where it ends a segment. Behind a statement the cursor is moved to the stop
  of this very statement and past it, wherever its reader has left off, because no reader leaves
  the statement; so the next round begins where the next segment does.
Main exports: Cursor.segments, Cursor.segments_of_inside, Reading.ofCursor_eq,
  Parsed.ofTokens_eq_ofSegments
-/
import DatasetLineage.Proofs.CursorStatements

namespace DatasetLineage

/-- The segments that were complete before stay behind those of further tokens. -/
theorem Cut.foldl_add (segments : List Segment) (body tokens : List Token) :
    tokens.foldl Cut.add ⟨segments, body⟩ =
      ⟨(tokens.foldl Cut.add ⟨[], body⟩).segments ++ segments,
        (tokens.foldl Cut.add ⟨[], body⟩).body⟩ := by
  induction tokens generalizing segments body with
  | nil =>
      rfl
  | cons token rest ih =>
      rw [List.foldl_cons, List.foldl_cons, Cut.add, Cut.add]
      by_cases separates : token.isMark ';' = true
      · rw [if_pos separates, if_pos separates, ih, ih [_]]
        simp
      · rw [if_neg separates, if_neg separates, ih]

/-- The segments of tokens in front of the end, the first of which goes on from `begun`. -/
def Segment.cut (ending : Token) (begun tokens : List Token) : List Segment :=
  let cut := tokens.foldl Cut.add ⟨[], begun⟩
  ((⟨cut.body.reverse, ending⟩ : Segment) :: cut.segments).reverse.filter (!·.body.isEmpty)

section Cut

variable {token : Token}

theorem Segment.cut_cons_of_isMark (separates : token.isMark ';' = true) (ending : Token)
    (begun rest : List Token) :
    cut ending begun (token :: rest) =
      [⟨begun.reverse, token⟩].filter (fun segment => !segment.body.isEmpty) ++
        cut ending [] rest := by
  rw [cut, List.foldl_cons, Cut.add, if_pos separates, Cut.foldl_add, cut]
  simp only [List.reverse_cons, List.reverse_append, List.reverse_nil, List.nil_append,
    List.append_assoc, List.filter_append]

theorem Segment.cut_cons_of_other (goesOn : token.isMark ';' = false) (ending : Token)
    (begun rest : List Token) :
    cut ending begun (token :: rest) = cut ending (token :: begun) rest := by
  rw [cut, List.foldl_cons, Cut.add, goesOn, cut]
  rfl

end Cut

namespace Cursor

/-- The token for the end of the tokens from the cursor on. -/
def ending (cursor : Cursor) : Token :=
  (cursor.ahead.find? Token.isEnd).getD (Token.endAt cursor.last)

/-- The segments of the tokens from the cursor on. -/
def segments (cursor : Cursor) : List Segment :=
  Segment.cut cursor.ending [] (cursor.ahead.takeWhile (!·.isEnd))

theorem segments_ofTokens (tokens : List Token) :
    (ofTokens tokens).segments = Segment.ofTokens tokens := by
  have ending : (ofTokens tokens).ending = endToken tokens := by
    unfold ending endToken
    cases found : tokens.find? Token.isEnd <;> simp [ofTokens, found]
  rw [segments, ending]
  rfl

section Segments

variable {cursor : Cursor}

theorem takeWhile_of_isAtEnd (atEnd : cursor.isAtEnd = true) :
    cursor.ahead.takeWhile (!·.isEnd) = [] ∧ cursor.ending = cursor.peek := by
  unfold isAtEnd at atEnd
  unfold ending peek at *
  cases ahead : cursor.ahead with
  | nil =>
      exact ⟨rfl, rfl⟩
  | cons token rest =>
      rw [ahead] at atEnd
      have isEnd : token.isEnd = true := atEnd
      simp [isEnd]

theorem takeWhile_of_not_isAtEnd (notAtEnd : cursor.isAtEnd = false) :
    cursor.ahead.takeWhile (!·.isEnd) =
        cursor.peek :: cursor.advance.ahead.takeWhile (!·.isEnd) ∧
      cursor.ending = cursor.advance.ending := by
  have notEnd : cursor.peek.isEnd = false := notAtEnd
  have last : cursor.advance.last = cursor.last := by
    unfold advance
    split <;> rfl
  have ahead := ahead_eq notAtEnd
  unfold ending
  rw [last, ahead]
  simp [notEnd]

theorem segments_of_isAtEnd (atEnd : cursor.isAtEnd = true) : cursor.segments = [] := by
  rw [segments, (takeWhile_of_isAtEnd atEnd).1]
  rfl

theorem toNextStatement_of_isMark (separates : cursor.peek.isMark ';' = true) :
    cursor.toNextStatement = cursor.advance := by
  have atStop : cursor.isAtStop = true := by rw [isAtStop, separates, Bool.or_true]
  rw [toNextStatement, toStop_of_isAtStop atStop, passMark, if_pos separates]

theorem toNextStatement_of_isAtEnd (atEnd : cursor.isAtEnd = true) :
    cursor.toNextStatement = cursor := by
  have atStop : cursor.isAtStop = true := by rw [isAtStop, atEnd, Bool.true_or]
  have kind : cursor.peek.kind = .endOfText := eq_of_beq atEnd
  have notSeparator : cursor.peek.isMark ';' = false := by simp [Token.isMark, kind]
  rw [toNextStatement, toStop_of_isAtStop atStop, passMark, notSeparator]
  rfl

/-- The tokens from the cursor on are the rest of a statement, of which `begun` stands in front of
    the cursor, and the statements behind it. -/
theorem cut_eq (cursor : Cursor) (begun : List Token) :
    Segment.cut cursor.ending begun (cursor.ahead.takeWhile (!·.isEnd)) =
      [⟨begun.reverse ++ cursor.body, cursor.stop⟩].filter (fun segment => !segment.body.isEmpty) ++
        cursor.toNextStatement.segments := by
  induction cursor using toStop.induct generalizing begun with
  | case1 cursor atStop =>
      rw [body_of_isAtStop atStop, stop_of_isAtStop atStop, List.append_nil]
      cases atEnd : cursor.isAtEnd with
      | true =>
          obtain ⟨nothing, same⟩ := takeWhile_of_isAtEnd atEnd
          rw [nothing, same, toNextStatement_of_isAtEnd atEnd, segments_of_isAtEnd atEnd,
            List.append_nil]
          rfl
      | false =>
          have separates : cursor.peek.isMark ';' = true := by
            rwa [isAtStop, atEnd, Bool.false_or] at atStop
          obtain ⟨goesOn, same⟩ := takeWhile_of_not_isAtEnd atEnd
          rw [goesOn, same, toNextStatement_of_isMark separates,
            Segment.cut_cons_of_isMark separates, segments]
  | case2 cursor inside ih =>
      have inside := Bool.eq_false_iff.mpr inside
      have notSeparator : cursor.peek.isMark ';' = false := (Bool.or_eq_false_iff.mp inside).2
      obtain ⟨goesOn, same⟩ := takeWhile_of_not_isAtEnd (isAtEnd_of_inside inside)
      rw [goesOn, same, Segment.cut_cons_of_other notSeparator, ih, List.reverse_cons,
        List.append_assoc, List.singleton_append, ← body_eq inside, stop_advance inside,
        (StaysInside.ofAdvance inside).toNextStatement_eq]

/-- A semicolon alone is no segment. -/
theorem segments_of_isMark (separates : cursor.peek.isMark ';' = true) :
    cursor.segments = cursor.advance.segments := by
  have atStop : cursor.isAtStop = true := by rw [isAtStop, separates, Bool.or_true]
  rw [segments, cut_eq, body_of_isAtStop atStop, toNextStatement_of_isMark separates]
  rfl

/-- A statement is a segment. -/
theorem segments_of_inside (inside : cursor.isAtStop = false) :
    cursor.segments = cursor.segment :: cursor.toNextStatement.segments := by
  rw [segments, cut_eq, segment, body_eq inside]
  rfl

end Segments

end Cursor

/-- The statements from a cursor on are those of the segments. -/
theorem Reading.ofCursor_eq (reading : Reading) (cursor : Cursor) :
    reading.ofCursor cursor = cursor.segments.foldl Reading.add reading := by
  induction reading, cursor using Reading.ofCursor.induct with
  | case1 reading cursor atEnd =>
      rw [ofCursor, dif_pos atEnd, Cursor.segments_of_isAtEnd atEnd]
      rfl
  | case2 reading cursor notAtEnd separates ih =>
      rw [ofCursor, dif_neg notAtEnd, dif_pos separates, Cursor.segments_of_isMark separates]
      exact ih
  | case3 reading cursor notAtEnd notSeparator ih =>
      have inside : cursor.isAtStop = false := Bool.or_eq_false_iff.mpr
        ⟨Bool.eq_false_iff.mpr notAtEnd, Bool.eq_false_iff.mpr notSeparator⟩
      have stays := Cursor.staysInside_readInStep inside reading.openStep
      rw [ofCursor, dif_neg notAtEnd, dif_neg notSeparator, ih, stays.toNextStatement_eq,
        Cursor.segments_of_inside inside, List.foldl_cons, Reading.add,
        Cursor.readInStep_eq inside]

/-- The statements of a token sequence are those of its segments. -/
theorem Parsed.ofTokens_eq_ofSegments (tokens : List Token) :
    Parsed.ofTokens tokens = .ofSegments (Segment.ofTokens tokens) := by
  rw [ofTokens, Reading.ofCursor_eq, Cursor.segments_ofTokens, ofSegments]

end DatasetLineage
