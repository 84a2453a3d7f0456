/-
Module: DatasetLineage.Program.Cursor.Statement
Purpose: What is read from a cursor at the first token of a statement. A reader takes the keyword
  and then operands for as long as the statement has not ended, and leaves the cursor somewhere in it:
  no group, no value of an option and no look ahead leads past the end of the statement.
Main exports: Contribution, Cursor.pastValue, Cursor.collectSources, Cursor.collectOptions,
  Cursor.readStatement, Cursor.staysInside_readStatement
-/
import DatasetLineage.Program.Cursor
import DatasetLineage.Program.Statement.Option

namespace DatasetLineage

/-- What a statement contributes, and the procedure step that is open behind it. -/
structure Contribution where
  statements : List Statement
  diagnostics : List Diagnostic
  openStep : Option ProcStep
deriving DecidableEq, Repr

/-- Operands of a read statement: the sources, latest first, the first token that is out of place,
    and the opening parenthesis of a group that is not closed. -/
structure SourceOperands where
  sources : List Mention := []
  stray : Option Token := none
  unclosed : Option Token := none

/-- What is wrong with the operands. A group that is not closed comes first. -/
def SourceOperands.diagnostics (operands : SourceOperands) (keyword : Token) : List Diagnostic :=
  (operands.unclosed.map (·.fault .unclosedParenthesis)).toList ++
    (operands.stray.map (·.fault (.unexpectedTokens keyword.spelling))).toList

/-- Options of a procedure step: the step with their datasets, and what is wrong with them, latest
    first. -/
structure StepOptions where
  step : ProcStep
  diagnostics : List Diagnostic := []

namespace Cursor

/-! ### Values of options -/

section Values

variable {cursor : Cursor}

/-- Past the value of the option that ends at the cursor, if it is given. The value is one token of
    any kind, and the statement may end in front of it. -/
def pastValue (cursor : Cursor) : Cursor :=
  if (cursor.passMark '=').1 && !(cursor.passMark '=').2.isAtStop then
    (cursor.passMark '=').2.advance
  else (cursor.passMark '=').2

theorem staysInside_pastValue (cursor : Cursor) : StaysInside cursor cursor.pastValue := by
  have equals : StaysInside cursor (cursor.passMark '=').2 := staysInside_passMark (by decide)
  unfold pastValue
  split
  · rename_i given
    rw [Bool.and_eq_true, Bool.not_eq_true'] at given
    exact equals.advance given.2
  · exact equals

theorem isAtStop_of_name? {name : String} (named : cursor.peek.name? = some name) :
    cursor.isAtStop = false := by
  unfold Token.name? at named
  split at named
  · rename_i kind
    simp [isAtStop, isAtEnd, Token.isEnd, Token.isMark, kind]
  · exact absurd named (Option.some_ne_none name).symm

/-- The token that a look ahead shows is the one at which a move arrives. -/
theorem peek_advance (inside : cursor.isAtStop = false) :
    cursor.advance.peek = cursor.peekNext := by
  have last : cursor.advance.last = cursor.last := by
    unfold advance
    split <;> rfl
  rw [peekNext, ahead_eq (isAtEnd_of_inside inside), peek, last, List.getElem?_cons_succ,
    List.head?_eq_getElem?]

end Values

/-- The operands of a read statement from the cursor on. -/
def collectSources (cursor : Cursor) (operands : SourceOperands) : SourceOperands × Cursor :=
  if _ : cursor.isAtStop then (operands, cursor)
  else if cursor.peek.isMark '(' then
    if cursor.pastGroup.1 then cursor.pastGroup.2.collectSources operands
    else ({ operands with unclosed := some cursor.peek }, cursor.pastGroup.2)
  else if cursor.peek.isMark ',' || cursor.peek.isMark '/' then
    cursor.advance.collectSources operands
  else match cursor.peek.name? with
    | some name =>
      if isReadOption name then cursor.advance.pastValue.collectSources operands
      else cursor.advance.collectSources
        { operands with sources := cursor.peek.mention :: operands.sources }
    | none =>
      cursor.advance.collectSources
        { operands with stray := operands.stray.or (some cursor.peek) }
termination_by cursor.ahead.length
decreasing_by
  · exact Nat.lt_of_le_of_lt (staysInside_pastGroups 1 _).length_le
      (length_advance_lt_of_inside ‹_›)
  · exact length_advance_lt_of_inside ‹_›
  · exact Nat.lt_of_le_of_lt (staysInside_pastValue _).length_le (length_advance_lt_of_inside ‹_›)
  · exact length_advance_lt_of_inside ‹_›
  · exact length_advance_lt_of_inside ‹_›

/-- Past an option, its equals sign and the name behind it. -/
theorem staysInside_pastOption {cursor : Cursor} {name : String}
    (equals : cursor.advance.peek.isMark '=' = true)
    (named : cursor.advance.peekNext.name? = some name) :
    StaysInside cursor.advance cursor.advance.advance.advance := by
  have atEquals := isAtStop_of_isMark equals (by decide)
  rw [← peek_advance atEquals] at named
  exact (StaysInside.ofAdvance atEquals).advance (isAtStop_of_name? named)

/-- The dataset options from the cursor on. They are looked for at every token. If no name stands
    behind the equals sign of an option, the token that stands there is reported, and the search
    goes on at the sign. -/
def collectOptions (cursor : Cursor) (options : StepOptions) : StepOptions × Cursor :=
  if _ : cursor.isAtStop then (options, cursor)
  else match datasetOption? cursor.peek with
    | none => cursor.advance.collectOptions options
    | some option =>
      if _ : cursor.advance.peek.isMark '=' then
        match _ : cursor.advance.peekNext.name? with
        | none =>
          cursor.advance.collectOptions { options with
            diagnostics := cursor.advance.peekNext.fault (.missingOptionValue option) ::
              options.diagnostics }
        | some _ =>
          cursor.advance.advance.advance.collectOptions { options with
            step := options.step.addOption option cursor.advance.advance.peek.mention }
      else cursor.advance.collectOptions options
termination_by cursor.ahead.length
decreasing_by
  · exact length_advance_lt_of_inside ‹_›
  · exact length_advance_lt_of_inside ‹_›
  · have passed := staysInside_pastOption ‹_› ‹_›
    exact Nat.lt_of_le_of_lt passed.length_le (length_advance_lt_of_inside ‹_›)
  · exact length_advance_lt_of_inside ‹_›

/-- A DATA statement. Only the name directly behind the keyword matters. -/
def readDatasetDef (cursor : Cursor) : Contribution × Cursor :=
  if cursor.advance.peek.name?.isSome then
    (⟨[.datasetDef cursor.advance.peek.mention], [], none⟩, cursor.advance.advance)
  else (⟨[.other], [cursor.peek.fault .missingDatasetName], none⟩, cursor.advance)

/-- A SET, MERGE, UPDATE or MODIFY statement. -/
def readSource (cursor : Cursor) : Contribution × Cursor :=
  let keyword := cursor.peek
  let (operands, behind) := cursor.advance.collectSources {}
  let diagnostics := operands.diagnostics keyword
  if operands.sources.isEmpty then
    (⟨[.other], diagnostics ++ [keyword.fault (.missingSources keyword.spelling)], none⟩, behind)
  else (⟨[.readSource keyword.mention operands.sources.reverse], diagnostics, none⟩, behind)

/-- An INFILE statement. The path has to follow the keyword directly; whatever stands there instead,
    be it the end of the statement, is reported. -/
def readExternal (cursor : Cursor) : Contribution × Cursor :=
  match cursor.advance.peek.kind with
  | .string _ =>
    (⟨[.readExternal cursor.peek.mention cursor.advance.peek.mention], [], none⟩,
      cursor.advance.advance)
  | kind => (⟨[.other], [cursor.advance.peek.fault (.missingPath kind)], none⟩, cursor.advance)

/-- A statement of an open procedure step, which may have options for it. -/
def readStepOptions (step : ProcStep) (cursor : Cursor) : Contribution × Cursor :=
  let (options, behind) := cursor.collectOptions { step }
  (⟨[.other], options.diagnostics.reverse, some options.step⟩, behind)

/-- A PROC statement. -/
def readProc (cursor : Cursor) : Contribution × Cursor :=
  if cursor.advance.peek.name?.isSome then
    cursor.advance.advance.readStepOptions ⟨cursor.advance.peek.mention, [], []⟩
  else (⟨[.other], [cursor.peek.fault .missingProcedureName], none⟩, cursor.advance)

/-- A statement in no procedure step. -/
def readStatement (cursor : Cursor) : Contribution × Cursor :=
  match cursor.peek.keyword? with
  | some .data => cursor.readDatasetDef
  | some .infile => cursor.readExternal
  | some .proc => cursor.readProc
  | some keyword =>
    if keyword.readsDatasets then cursor.readSource else (⟨[.other], [], none⟩, cursor)
  | none => (⟨[.other], [], none⟩, cursor)

/-! ### Readers stay inside -/

section Inside

variable {cursor : Cursor}

theorem staysInside_collectSources (cursor : Cursor) (operands : SourceOperands) :
    StaysInside cursor (cursor.collectSources operands).2 := by
  induction cursor, operands using collectSources.induct with
  | case1 cursor operands atStop =>
      rw [collectSources, dif_pos atStop]
      exact .here
  | case2 cursor operands inside opens closed ih =>
      rw [collectSources, dif_neg inside, if_pos opens, if_pos closed]
      exact (staysInside_pastGroup (Bool.eq_false_iff.mpr inside)).trans ih
  | case3 cursor operands inside opens unclosed =>
      rw [collectSources, dif_neg inside, if_pos opens, if_neg unclosed]
      exact staysInside_pastGroup (Bool.eq_false_iff.mpr inside)
  | case4 cursor operands inside notOpening separates ih =>
      rw [collectSources, dif_neg inside, if_neg notOpening, if_pos separates]
      exact (StaysInside.ofAdvance (Bool.eq_false_iff.mpr inside)).trans ih
  | case5 cursor operands inside notOpening notSeparator name named isOption ih =>
      rw [collectSources, dif_neg inside, if_neg notOpening, if_neg notSeparator, named]
      simp only [if_pos isOption]
      have first := StaysInside.ofAdvance (Bool.eq_false_iff.mpr inside)
      exact (first.trans (staysInside_pastValue _)).trans ih
  | case6 cursor operands inside notOpening notSeparator name named isSource ih =>
      rw [collectSources, dif_neg inside, if_neg notOpening, if_neg notSeparator, named]
      simp only [if_neg isSource]
      exact (StaysInside.ofAdvance (Bool.eq_false_iff.mpr inside)).trans ih
  | case7 cursor operands inside notOpening notSeparator notNamed ih =>
      rw [collectSources, dif_neg inside, if_neg notOpening, if_neg notSeparator, notNamed]
      exact (StaysInside.ofAdvance (Bool.eq_false_iff.mpr inside)).trans ih

theorem staysInside_collectOptions (cursor : Cursor) (options : StepOptions) :
    StaysInside cursor (cursor.collectOptions options).2 := by
  induction cursor, options using collectOptions.induct with
  | case1 cursor options atStop =>
      rw [collectOptions, dif_pos atStop]
      exact .here
  | case2 cursor options inside notOption ih =>
      rw [collectOptions, dif_neg inside, notOption]
      exact (StaysInside.ofAdvance (Bool.eq_false_iff.mpr inside)).trans ih
  | case3 cursor options inside option isOption equals missing ih =>
      rw [collectOptions, dif_neg inside, isOption]
      simp only [dif_pos equals]
      rw [missing]
      exact (StaysInside.ofAdvance (Bool.eq_false_iff.mpr inside)).trans ih
  | case4 cursor options inside option isOption equals name named ih =>
      rw [collectOptions, dif_neg inside, isOption]
      simp only [dif_pos equals]
      have first := StaysInside.ofAdvance (Bool.eq_false_iff.mpr inside)
      rw [named]
      exact (first.trans (staysInside_pastOption equals named)).trans ih
  | case5 cursor options inside option isOption notEquals ih =>
      rw [collectOptions, dif_neg inside, isOption]
      simp only [dif_neg notEquals]
      exact (StaysInside.ofAdvance (Bool.eq_false_iff.mpr inside)).trans ih

theorem staysInside_readDatasetDef (inside : cursor.isAtStop = false) :
    StaysInside cursor cursor.readDatasetDef.2 := by
  have first := StaysInside.ofAdvance inside
  unfold readDatasetDef
  split
  · rename_i named
    obtain ⟨name, named⟩ := Option.isSome_iff_exists.mp named
    exact first.advance (isAtStop_of_name? named)
  · exact first

theorem staysInside_readSource (inside : cursor.isAtStop = false) :
    StaysInside cursor cursor.readSource.2 := by
  have collected := staysInside_collectSources cursor.advance {}
  unfold readSource
  dsimp only
  split
  · exact (StaysInside.ofAdvance inside).trans collected
  · exact (StaysInside.ofAdvance inside).trans collected

theorem staysInside_readExternal (inside : cursor.isAtStop = false) :
    StaysInside cursor cursor.readExternal.2 := by
  have first := StaysInside.ofAdvance inside
  unfold readExternal
  split
  · rename_i kind
    exact first.advance (by simp [isAtStop, isAtEnd, Token.isEnd, Token.isMark, kind])
  · exact first

theorem staysInside_readStepOptions (step : ProcStep) (cursor : Cursor) :
    StaysInside cursor (cursor.readStepOptions step).2 :=
  staysInside_collectOptions cursor { step }

theorem staysInside_readProc (inside : cursor.isAtStop = false) :
    StaysInside cursor cursor.readProc.2 := by
  have first := StaysInside.ofAdvance inside
  unfold readProc
  split
  · rename_i named
    obtain ⟨name, named⟩ := Option.isSome_iff_exists.mp named
    exact (first.advance (isAtStop_of_name? named)).trans (staysInside_readStepOptions _ _)
  · exact first

/-- No statement is read beyond its end. -/
theorem staysInside_readStatement (inside : cursor.isAtStop = false) :
    StaysInside cursor cursor.readStatement.2 := by
  unfold readStatement
  split
  · exact staysInside_readDatasetDef inside
  · exact staysInside_readExternal inside
  · exact staysInside_readProc inside
  · split
    · exact staysInside_readSource inside
    · exact .here
  · exact .here

end Inside

end Cursor

end DatasetLineage
