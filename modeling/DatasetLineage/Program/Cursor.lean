/-
Module: DatasetLineage.Program.Cursor
Purpose: A place in a token sequence from which statements are read. The token at the place and the
  one behind it can be looked at, and behind all tokens an end is made up. No move passes a token
  that stands for the end; of the moves here, only the one to the next statement passes a semicolon.
Main exports: Cursor, Cursor.ofTokens, Cursor.peek, Cursor.peekNext, Cursor.advance,
  Cursor.isAtStop, Cursor.toStop, Cursor.toNextStatement, Cursor.pastGroup, Cursor.StaysInside
-/
import DatasetLineage.Program.Token

namespace DatasetLineage

/-- A place in a token sequence: the tokens from there on, and the position of the last token of the
    sequence. -/
structure Cursor where
  ahead : List Token
  last : Position
deriving DecidableEq, Repr

namespace Cursor

/-- The first place of a token sequence. -/
def ofTokens (tokens : List Token) : Cursor :=
  ⟨tokens, (tokens.getLast?.map Token.position).getD .start⟩

/-- The token at the cursor. -/
def peek (cursor : Cursor) : Token := cursor.ahead.head?.getD (Token.endAt cursor.last)

/-- The token behind the one at the cursor. -/
def peekNext (cursor : Cursor) : Token := cursor.ahead[1]?.getD (Token.endAt cursor.last)

/-- Whether nothing is left to read. -/
def isAtEnd (cursor : Cursor) : Bool := cursor.peek.isEnd

/-- Whether the statement ends at the cursor. -/
def isAtStop (cursor : Cursor) : Bool := cursor.isAtEnd || cursor.peek.isMark ';'

/-- Past the token at the cursor, unless that is the end. -/
def advance (cursor : Cursor) : Cursor :=
  if cursor.isAtEnd then cursor else { cursor with ahead := cursor.ahead.tail }

/-- Past the mark `c`, if it stands at the cursor, and whether it does. -/
def passMark (c : Char) (cursor : Cursor) : Bool × Cursor :=
  if cursor.peek.isMark c then (true, cursor.advance) else (false, cursor)

/-! ### Moves by one token -/

section Advance

variable {cursor : Cursor}

/-- In front of the end there is a token at the cursor, which a move passes. -/
theorem ahead_eq (notAtEnd : cursor.isAtEnd = false) :
    cursor.ahead = cursor.peek :: cursor.advance.ahead := by
  rw [advance, notAtEnd]
  obtain ⟨ahead, last⟩ := cursor
  cases ahead with
  | nil =>
      exact absurd notAtEnd (by simp [isAtEnd, peek, Token.isEnd, Token.endAt])
  | cons token rest =>
      rfl

theorem isAtEnd_of_inside (inside : cursor.isAtStop = false) : cursor.isAtEnd = false :=
  (Bool.or_eq_false_iff.mp inside).1

theorem length_advance_lt (notAtEnd : cursor.isAtEnd = false) :
    cursor.advance.ahead.length < cursor.ahead.length := by
  rw [ahead_eq notAtEnd, List.length_cons]
  exact Nat.lt_succ_self _

theorem length_advance_lt_of_inside (inside : ¬ cursor.isAtStop = true) :
    cursor.advance.ahead.length < cursor.ahead.length :=
  length_advance_lt (isAtEnd_of_inside (Bool.eq_false_iff.mpr inside))

end Advance

/-- The end of the statement at the cursor. -/
def toStop (cursor : Cursor) : Cursor :=
  if cursor.isAtStop then cursor else cursor.advance.toStop
termination_by cursor.ahead.length
decreasing_by exact length_advance_lt_of_inside ‹_›

/-- Just past the semicolon that ends the statement at the cursor, or at the end. -/
def toNextStatement (cursor : Cursor) : Cursor := (cursor.toStop.passMark ';').2

/-- How many groups in parentheses are open behind a token, if `depth` are open in front of it. -/
def depthBehind (depth : Nat) (token : Token) : Nat :=
  if token.isMark '(' then depth + 1
  else if token.isMark ')' then depth - 1
  else depth

/-- Past the end of the outermost of `depth` open groups, and whether the statement has it. If it
    does not, to the end of the statement. -/
def pastGroups (depth : Nat) (cursor : Cursor) : Bool × Cursor :=
  if depth = 0 then (true, cursor)
  else if cursor.isAtStop then (false, cursor)
  else cursor.advance.pastGroups (depthBehind depth cursor.peek)
termination_by cursor.ahead.length
decreasing_by exact length_advance_lt_of_inside ‹_›

/-- Past the group that the token at the cursor opens, groups in it included. -/
def pastGroup (cursor : Cursor) : Bool × Cursor := cursor.advance.pastGroups 1

/-- A depth grows by one for a token at most, so to count `2 ^ 31` open groups takes as many tokens
    of one statement. -/
theorem foldl_depthBehind_le (depth : Nat) (tokens : List Token) :
    tokens.foldl depthBehind depth ≤ depth + tokens.length := by
  induction tokens generalizing depth with
  | nil =>
      exact Nat.le_refl depth
  | cons token rest ih =>
      have one : depthBehind depth token ≤ depth + 1 := by
        unfold depthBehind
        split
        · exact Nat.le_refl _
        · split <;> omega
      have more := ih (depthBehind depth token)
      rw [List.foldl_cons, List.length_cons]
      omega

/-- Moves inside of a statement: each passes a token at which the statement does not end. -/
inductive StaysInside (cursor : Cursor) : Cursor → Prop where
  | here : StaysInside cursor cursor
  | advance {moved : Cursor} : StaysInside cursor moved → moved.isAtStop = false →
      StaysInside cursor moved.advance

/-! ### Moves up to a stop -/

section Moves

variable {cursor moved further : Cursor} {depth : Nat}

theorem toStop_of_isAtStop (atStop : cursor.isAtStop = true) : cursor.toStop = cursor := by
  rw [toStop, if_pos atStop]

theorem toStop_advance (inside : cursor.isAtStop = false) :
    cursor.advance.toStop = cursor.toStop := by
  rw [toStop.eq_def cursor, inside, if_neg Bool.false_ne_true]

theorem isAtStop_toStop (cursor : Cursor) : cursor.toStop.isAtStop = true := by
  induction cursor using toStop.induct with
  | case1 cursor atStop =>
      rwa [toStop_of_isAtStop atStop]
  | case2 cursor inside ih =>
      rwa [toStop_advance (Bool.eq_false_iff.mpr inside)] at ih

/-! ### Moves inside of a statement -/

namespace StaysInside

theorem ofAdvance (inside : cursor.isAtStop = false) : StaysInside cursor cursor.advance :=
  .advance .here inside

theorem trans (stays : StaysInside cursor moved) (goesOn : StaysInside moved further) :
    StaysInside cursor further := by
  induction goesOn with
  | here =>
      exact stays
  | advance _ inside ih =>
      exact ih.advance inside

/-- Moves inside of a statement come to the same end of it. -/
theorem toStop_eq (stays : StaysInside cursor moved) : moved.toStop = cursor.toStop := by
  induction stays with
  | here =>
      rfl
  | advance _ inside ih =>
      rw [toStop_advance inside, ih]

theorem toNextStatement_eq (stays : StaysInside cursor moved) :
    moved.toNextStatement = cursor.toNextStatement := by
  rw [toNextStatement, stays.toStop_eq, toNextStatement]

theorem length_le (stays : StaysInside cursor moved) :
    moved.ahead.length ≤ cursor.ahead.length := by
  induction stays with
  | here =>
      exact Nat.le_refl _
  | advance _ inside ih =>
      exact Nat.le_of_lt (Nat.lt_of_lt_of_le (length_advance_lt (isAtEnd_of_inside inside)) ih)

end StaysInside

theorem staysInside_toStop (cursor : Cursor) : StaysInside cursor cursor.toStop := by
  induction cursor using toStop.induct with
  | case1 cursor atStop =>
      rw [toStop_of_isAtStop atStop]
      exact .here
  | case2 cursor inside ih =>
      rw [toStop, if_neg inside]
      exact (StaysInside.ofAdvance (Bool.eq_false_iff.mpr inside)).trans ih

/-- A group is passed inside of the statement, whether it is closed there or not. -/
theorem staysInside_pastGroups (depth : Nat) (cursor : Cursor) :
    StaysInside cursor (cursor.pastGroups depth).2 := by
  induction depth, cursor using pastGroups.induct with
  | case1 cursor =>
      rw [pastGroups, if_pos rfl]
      exact .here
  | case2 depth cursor isOpen atStop =>
      rw [pastGroups, if_neg isOpen, if_pos atStop]
      exact .here
  | case3 depth cursor isOpen inside ih =>
      rw [pastGroups, if_neg isOpen, if_neg inside]
      exact (StaysInside.ofAdvance (Bool.eq_false_iff.mpr inside)).trans ih

theorem staysInside_pastGroup (inside : cursor.isAtStop = false) :
    StaysInside cursor cursor.pastGroup.2 :=
  (StaysInside.ofAdvance inside).trans (staysInside_pastGroups 1 cursor.advance)

theorem isAtStop_of_isMark {c : Char} (isMark : cursor.peek.isMark c = true) (other : c ≠ ';') :
    cursor.isAtStop = false := by
  have kind : cursor.peek.kind = .mark c := eq_of_beq isMark
  simp [isAtStop, isAtEnd, Token.isEnd, Token.isMark, kind, other]

theorem staysInside_passMark {c : Char} (other : c ≠ ';') :
    StaysInside cursor (cursor.passMark c).2 := by
  unfold passMark
  split
  · rename_i isMark
    exact .ofAdvance (isAtStop_of_isMark isMark other)
  · exact .here

theorem length_advance_le (cursor : Cursor) :
    cursor.advance.ahead.length ≤ cursor.ahead.length := by
  unfold advance
  split
  · exact Nat.le_refl _
  · rw [List.length_tail]
    exact Nat.sub_le _ 1

/-- From the inside of a statement the next one is farther on. -/
theorem length_toNextStatement_lt (inside : cursor.isAtStop = false) :
    cursor.toNextStatement.ahead.length < cursor.ahead.length := by
  have first := length_advance_lt (isAtEnd_of_inside inside)
  have others := (staysInside_toStop cursor.advance).length_le
  have last : (cursor.advance.toStop.passMark ';').2.ahead.length ≤
      cursor.advance.toStop.ahead.length := by
    unfold passMark
    split
    · exact length_advance_le _
    · exact Nat.le_refl _
  rw [← (StaysInside.ofAdvance inside).toNextStatement_eq]
  exact Nat.lt_of_le_of_lt (Nat.le_trans last others) first

end Moves

end Cursor

end DatasetLineage
