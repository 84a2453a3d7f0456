/-
Module: DatasetLineage.Program.Parsed
Purpose: The statements of a program and what is wrong with them. Statements are read one behind the
  other from a cursor. The one thing that crosses from a statement to the next is the procedure
  step that is open: it collects dataset options until a statement opens with RUN, QUIT, DATA or
  PROC, or the program ends, and its statement is given at that point.
Main exports: Parsed, Cursor.readInStep, Reading.ofCursor, Parsed.ofTokens, Parsed.ofScanned,
  Parsed.ofText
-/
import DatasetLineage.Program.Cursor.Statement
import DatasetLineage.Program.Scanned

namespace DatasetLineage

/-- Statements and diagnostics, each in the order in which they were found. -/
structure Parsed where
  statements : List Statement
  diagnostics : List Diagnostic
deriving DecidableEq, Repr

/-- A statement behind which a procedure step may be open. -/
def Cursor.readInStep (openStep : Option ProcStep) (cursor : Cursor) : Contribution × Cursor :=
  match openStep with
  | none => cursor.readStatement
  | some step =>
    if cursor.peek.keyword?.any Keyword.endsStep then (⟨[.procStep step, .other], [], none⟩, cursor)
    else if cursor.peek.keyword?.any Keyword.opensStep then
      let (next, behind) := cursor.readStatement
      ({ next with statements := .procStep step :: next.statements }, behind)
    else cursor.readStepOptions step

theorem Cursor.staysInside_readInStep {cursor : Cursor} (inside : cursor.isAtStop = false)
    (openStep : Option ProcStep) : StaysInside cursor (cursor.readInStep openStep).2 := by
  unfold readInStep
  split
  · exact staysInside_readStatement inside
  · split
    · exact .here
    · split
      · exact staysInside_readStatement inside
      · exact staysInside_readStepOptions _ cursor

theorem Cursor.length_toNextStatement_readInStep_lt {cursor : Cursor}
    (notAtEnd : cursor.isAtEnd = false) (notAtStop : cursor.peek.isMark ';' = false)
    (openStep : Option ProcStep) :
    (cursor.readInStep openStep).2.toNextStatement.ahead.length < cursor.ahead.length := by
  have inside : cursor.isAtStop = false := Bool.or_eq_false_iff.mpr ⟨notAtEnd, notAtStop⟩
  rw [(staysInside_readInStep inside openStep).toNextStatement_eq]
  exact length_toNextStatement_lt inside

/-- Statements that are being read: what they contributed, latest first, and the open step. -/
structure Reading where
  statements : List Statement
  diagnostics : List Diagnostic
  openStep : Option ProcStep

/-- What one more statement contributes. -/
def Reading.append (reading : Reading) (next : Contribution) : Reading :=
  ⟨next.statements.reverse ++ reading.statements, next.diagnostics.reverse ++ reading.diagnostics,
    next.openStep⟩

/-- The statements from a cursor on. A semicolon alone is no statement. -/
def Reading.ofCursor (reading : Reading) (cursor : Cursor) : Reading :=
  if _ : cursor.isAtEnd then reading
  else if _ : cursor.peek.isMark ';' then reading.ofCursor cursor.advance
  else
    ofCursor (reading.append (cursor.readInStep reading.openStep).1)
      (cursor.readInStep reading.openStep).2.toNextStatement
termination_by cursor.ahead.length
decreasing_by
  · exact Cursor.length_advance_lt (Bool.eq_false_iff.mpr ‹_›)
  · exact Cursor.length_toNextStatement_readInStep_lt (Bool.eq_false_iff.mpr ‹_›)
      (Bool.eq_false_iff.mpr ‹_›) reading.openStep

/-- What a reading gives at the end of a program. A step that is open there is complete. -/
def Reading.finished (reading : Reading) : Parsed :=
  ⟨reading.statements.reverse ++ (reading.openStep.map Statement.procStep).toList,
    reading.diagnostics.reverse⟩

/-- The statements of a token sequence. -/
def Parsed.ofTokens (tokens : List Token) : Parsed :=
  (Reading.ofCursor ⟨[], [], none⟩ (.ofTokens tokens)).finished

/-- The statements of what was found in a program text. What is wrong with its characters comes
    before what is wrong with its statements. -/
def Parsed.ofScanned (scanned : Scanned) : Parsed :=
  let parsed := ofTokens scanned.tokens
  ⟨parsed.statements, scanned.diagnostics ++ parsed.diagnostics⟩

/-- The statements of a program text. -/
def Parsed.ofText (text : String) : Parsed := ofScanned (Scanned.ofText text)

end DatasetLineage
