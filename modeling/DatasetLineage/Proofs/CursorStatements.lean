/-
Module: DatasetLineage.Proofs.CursorStatements
Purpose: What a cursor reads of a statement is told by the tokens of the statement and the token
  that stops it. Every loop of a reader stops at the end of the statement: a loop that has not come
  there takes the token at the cursor, and the tokens up to the end are this one and the ones behind
  it. So each loop is the recursion on the tokens of the statement that reads the operands all at
  once.
Main exports: Cursor.body, Cursor.stop, Cursor.segment, Cursor.body_eq, SourceOperands.behind,
  Cursor.collectSources_eq, optionValues_cons, Cursor.collectOptions_eq, Cursor.readStatement_eq,
  Cursor.readInStep_eq
-/
import DatasetLineage.Program.Segment.Reading
import DatasetLineage.Proofs.ReadRoles

namespace DatasetLineage

namespace Cursor

/-- Whether a statement ends at a token. -/
def endsStatement (token : Token) : Bool := token.isEnd || token.isMark ';'

/-- The tokens from the cursor to the end of the statement. -/
def body (cursor : Cursor) : List Token := cursor.ahead.takeWhile (!endsStatement ·)

/-- The token that stops the statement at the cursor. -/
def stop (cursor : Cursor) : Token := cursor.toStop.peek

/-- The rest of the statement at the cursor. -/
def segment (cursor : Cursor) : Segment := ⟨cursor.body, cursor.stop⟩

section Body

variable {cursor moved : Cursor}

theorem body_of_isAtStop (atStop : cursor.isAtStop = true) : cursor.body = [] := by
  rw [body]
  cases ahead : cursor.ahead with
  | nil =>
      rfl
  | cons token rest =>
      have ends : endsStatement token = true := by
        rw [isAtStop, isAtEnd, peek, ahead] at atStop
        exact atStop
      rw [List.takeWhile_cons, ends]
      rfl

/-- A statement that has not ended goes on with the token at the cursor and the ones behind it. -/
theorem body_eq (inside : cursor.isAtStop = false) :
    cursor.body = cursor.peek :: cursor.advance.body := by
  have goesOn : endsStatement cursor.peek = false := inside
  rw [body, ahead_eq (isAtEnd_of_inside inside), List.takeWhile_cons, goesOn]
  rfl

theorem stop_of_isAtStop (atStop : cursor.isAtStop = true) : cursor.stop = cursor.peek := by
  rw [stop, toStop_of_isAtStop atStop]

theorem StaysInside.stop_eq (stays : StaysInside cursor moved) : moved.stop = cursor.stop := by
  rw [stop, stays.toStop_eq, stop]

theorem stop_advance (inside : cursor.isAtStop = false) : cursor.advance.stop = cursor.stop :=
  (StaysInside.ofAdvance inside).stop_eq

theorem endsStatement_stop (cursor : Cursor) : endsStatement cursor.stop = true :=
  isAtStop_toStop cursor

/-- The token at the cursor is the first one of the statement, or the one that stops it. -/
theorem peek_eq (cursor : Cursor) : cursor.peek = cursor.body.head?.getD cursor.stop := by
  cases atStop : cursor.isAtStop with
  | true =>
      rw [body_of_isAtStop atStop, stop_of_isAtStop atStop]
      rfl
  | false =>
      rw [body_eq atStop]
      rfl

end Body

end Cursor

section Stops

variable {stop : Token}

theorem kind_of_endsStatement (ends : Cursor.endsStatement stop = true) :
    stop.kind = .endOfText ∨ stop.kind = .mark ';' :=
  (Bool.or_eq_true_iff.mp ends).imp eq_of_beq eq_of_beq

theorem isMark_of_endsStatement (ends : Cursor.endsStatement stop = true) {c : Char}
    (other : c ≠ ';') : stop.isMark c = false := by
  rcases kind_of_endsStatement ends with kind | kind
  · simp [Token.isMark, kind]
  · simp [Token.isMark, kind, Ne.symm other]

theorem name?_of_endsStatement (ends : Cursor.endsStatement stop = true) : stop.name? = none := by
  rcases kind_of_endsStatement ends with kind | kind <;> simp [Token.name?, kind]

end Stops

/-! ### Read statements -/

/-- The place inside of so many open groups, of which `opening` opens the outermost. -/
def ReadPlace.inGroups (opening : Token) : Nat → ReadPlace
  | 0 => .item
  | inner + 1 => .group opening inner

theorem ReadPlace.take_inGroups (opening token : Token) (inner : Nat) :
    (inGroups opening (inner + 1)).take token =
      (.passed, inGroups opening (Cursor.depthBehind (inner + 1) token)) := by
  by_cases opens : token.isMark '(' = true
  · simp [inGroups, take, Cursor.depthBehind, opens]
  · by_cases closes : token.isMark ')' = true
    · cases inner <;> simp [inGroups, take, Cursor.depthBehind, opens, closes]
    · simp [inGroups, take, Cursor.depthBehind, opens, closes]

namespace SourceOperands

/-- Operands with those that stand behind a place. -/
def behind (operands : SourceOperands) (place : ReadPlace) (tokens : List Token) :
    SourceOperands where
  sources := ((tokensWithRole .source (place.roles tokens)).map Token.mention).reverse ++
    operands.sources
  stray := operands.stray.or (tokensWithRole .stray (place.roles tokens)).head?
  unclosed := (place.behind tokens).unclosed?.or operands.unclosed

section Behind

variable {place next : ReadPlace} {token : Token}

theorem behind_cons_of_passed (taken : place.take token = (.passed, next))
    (operands : SourceOperands) (rest : List Token) :
    operands.behind place (token :: rest) = operands.behind next rest := by
  simp [behind, ReadPlace.roles, ReadPlace.behind, taken, tokensWithRole_cons]

theorem behind_cons_of_source (taken : place.take token = (.source, next))
    (operands : SourceOperands) (rest : List Token) :
    operands.behind place (token :: rest) =
      behind { operands with sources := token.mention :: operands.sources } next rest := by
  simp [behind, ReadPlace.roles, ReadPlace.behind, taken, tokensWithRole_cons]

theorem behind_cons_of_stray (taken : place.take token = (.stray, next))
    (operands : SourceOperands) (rest : List Token) :
    operands.behind place (token :: rest) =
      behind { operands with stray := operands.stray.or (some token) } next rest := by
  simp [behind, ReadPlace.roles, ReadPlace.behind, taken, tokensWithRole_cons]

theorem behind_nil (operands : SourceOperands) (place : ReadPlace) :
    operands.behind place [] =
      { operands with unclosed := place.unclosed?.or operands.unclosed } := by
  simp [behind, ReadPlace.roles, ReadPlace.behind, tokensWithRole]

end Behind

end SourceOperands

namespace Cursor

open SourceOperands

/-- Groups are passed up to the token that closes the outermost one. If the statement ends before,
    this one is not closed. -/
theorem behind_inGroups (operands : SourceOperands) (opening : Token) (depth : Nat)
    (cursor : Cursor) :
    operands.behind (.inGroups opening depth) cursor.body =
      if (cursor.pastGroups depth).1 then operands.behind .item (cursor.pastGroups depth).2.body
      else { operands with unclosed := some opening } := by
  induction depth, cursor using pastGroups.induct with
  | case1 cursor =>
      rw [pastGroups, if_pos rfl, if_pos rfl]
      rfl
  | case2 depth cursor isOpen atStop =>
      obtain ⟨inner, rfl⟩ := Nat.exists_eq_succ_of_ne_zero isOpen
      rw [pastGroups, if_neg isOpen, if_pos atStop, body_of_isAtStop atStop, behind_nil]
      rfl
  | case3 depth cursor isOpen inside ih =>
      obtain ⟨inner, rfl⟩ := Nat.exists_eq_succ_of_ne_zero isOpen
      rw [pastGroups, if_neg isOpen, if_neg inside, body_eq (Bool.eq_false_iff.mpr inside),
        behind_cons_of_passed (ReadPlace.take_inGroups opening cursor.peek inner)]
      exact ih

/-- The value of an option is passed over. -/
theorem behind_optionSeen (operands : SourceOperands) (cursor : Cursor) :
    operands.behind .optionSeen cursor.body = operands.behind .item cursor.pastValue.body := by
  unfold pastValue
  by_cases equals : cursor.peek.isMark '=' = true
  · have inside := isAtStop_of_isMark equals (by decide)
    have seen := ReadPlace.take_optionSeen_of_isEquals equals
    have passed : cursor.passMark '=' = (true, cursor.advance) := if_pos equals
    rw [passed, body_eq inside, behind_cons_of_passed seen]
    cases atStop : cursor.advance.isAtStop with
    | true =>
        simp [body_of_isAtStop atStop, behind_nil, ReadPlace.unclosed?]
    | false =>
        have value : ReadPlace.optionValue.take cursor.advance.peek = (.passed, .item) := rfl
        rw [body_eq atStop, behind_cons_of_passed value]
        simp
  · have passed : cursor.passMark '=' = (false, cursor) := if_neg equals
    rw [passed]
    cases atStop : cursor.isAtStop with
    | true =>
        simp [body_of_isAtStop atStop, behind_nil, ReadPlace.unclosed?]
    | false =>
        have other := ReadPlace.take_optionSeen_of_other (Bool.eq_false_iff.mpr equals)
        simp [body_eq atStop, behind, ReadPlace.roles, ReadPlace.behind, other]

/-- The operands of a read statement have their roles, one behind the other. -/
theorem collectSources_eq (cursor : Cursor) (operands : SourceOperands) :
    (cursor.collectSources operands).1 = operands.behind .item cursor.body := by
  induction cursor, operands using collectSources.induct with
  | case1 cursor operands atStop =>
      rw [collectSources, dif_pos atStop, body_of_isAtStop atStop, behind_nil]
      rfl
  | case2 cursor operands inside opens closed ih =>
      have group := behind_inGroups operands cursor.peek 1 cursor.advance
      rw [collectSources, dif_neg inside, if_pos opens, if_pos closed, ih,
        body_eq (Bool.eq_false_iff.mpr inside),
        behind_cons_of_passed (ReadPlace.take_item_of_opening opens)]
      exact (group.trans (if_pos closed)).symm
  | case3 cursor operands inside opens unclosed =>
      have group := behind_inGroups operands cursor.peek 1 cursor.advance
      rw [collectSources, dif_neg inside, if_pos opens, if_neg unclosed,
        body_eq (Bool.eq_false_iff.mpr inside),
        behind_cons_of_passed (ReadPlace.take_item_of_opening opens)]
      exact (group.trans (if_neg unclosed)).symm
  | case4 cursor operands inside notOpening separates ih =>
      rw [collectSources, dif_neg inside, if_neg notOpening, if_pos separates, ih,
        body_eq (Bool.eq_false_iff.mpr inside),
        behind_cons_of_passed (ReadPlace.take_item_of_isSeparator separates)]
  | case5 cursor operands inside notOpening notSeparator name named isOption ih =>
      have option : cursor.peek.isOption = true := by simp [Token.isOption, named, isOption]
      rw [collectSources, dif_neg inside, if_neg notOpening, if_neg notSeparator, named]
      simp only [if_pos isOption]
      rw [ih, body_eq (Bool.eq_false_iff.mpr inside),
        behind_cons_of_passed (ReadPlace.take_item_of_isOption option), behind_optionSeen]
  | case6 cursor operands inside notOpening notSeparator name named notOption ih =>
      have source : cursor.peek.isSource = true := by simp [Token.isSource, named, notOption]
      rw [collectSources, dif_neg inside, if_neg notOpening, if_neg notSeparator, named]
      simp only [if_neg notOption]
      rw [ih, body_eq (Bool.eq_false_iff.mpr inside),
        behind_cons_of_source (ReadPlace.take_item_of_isSource source)]
  | case7 cursor operands inside notOpening notSeparator notNamed ih =>
      have stray : ReadPlace.item.take cursor.peek = (.stray, .item) :=
        ReadPlace.take_item_of_stray (Bool.eq_false_iff.mpr notOpening)
          (Bool.eq_false_iff.mpr notSeparator) notNamed
      rw [collectSources, dif_neg inside, if_neg notOpening, if_neg notSeparator, notNamed]
      dsimp only
      rw [ih, body_eq (Bool.eq_false_iff.mpr inside), behind_cons_of_stray stray]

end Cursor

/-! ### Options of procedure steps -/

/-- An option and the tokens behind it. What stops the statement is neither an equals sign nor a
    name. -/
theorem optionValues_cons {stop : Token} (ends : Cursor.endsStatement stop = true) (first : Token)
    (rest : List Token) :
    optionValues stop (first :: rest) =
      match datasetOption? first with
      | none => optionValues stop rest
      | some option =>
        if (rest.head?.getD stop).isMark '=' then
          match (rest.tail.head?.getD stop).name? with
          | none =>
            ⟨(optionValues stop rest).values,
              (rest.tail.head?.getD stop).fault (.missingOptionValue option) ::
                (optionValues stop rest).diagnostics⟩
          | some _ =>
            ⟨(option, (rest.tail.head?.getD stop).mention) ::
                (optionValues stop rest.tail.tail).values,
              (optionValues stop rest.tail.tail).diagnostics⟩
        else optionValues stop rest := by
  have notEquals : stop.isMark '=' = false := isMark_of_endsStatement ends (by decide)
  have notNamed := name?_of_endsStatement ends
  match rest with
  | [] =>
      cases datasetOption? first <;> simp [optionValues, notEquals]
  | [equals] =>
      cases found : datasetOption? first <;> simp [optionValues, found, notNamed]
  | equals :: value :: rest =>
      cases found : datasetOption? first with
      | none =>
          simp [optionValues, found]
      | some option =>
          cases named : value.name? <;> simp [optionValues, found, named]

namespace Cursor

/-- The dataset options from the cursor to the end of the statement. -/
def options (cursor : Cursor) : OptionValues := optionValues cursor.stop cursor.body

/-- The option at the cursor is found by looking ahead, and those behind it from a place behind
    it that still is in the statement. -/
theorem options_eq {cursor : Cursor} (inside : cursor.isAtStop = false) :
    cursor.options =
      match datasetOption? cursor.peek with
      | none => cursor.advance.options
      | some option =>
        if cursor.advance.peek.isMark '=' then
          match cursor.advance.peekNext.name? with
          | none =>
            ⟨cursor.advance.options.values,
              cursor.advance.peekNext.fault (.missingOptionValue option) ::
                cursor.advance.options.diagnostics⟩
          | some _ =>
            ⟨(option, cursor.advance.advance.peek.mention) ::
                cursor.advance.advance.advance.options.values,
              cursor.advance.advance.advance.options.diagnostics⟩
        else cursor.advance.options := by
  have next : cursor.advance.body.head?.getD cursor.stop = cursor.advance.peek := by
    rw [peek_eq, stop_advance inside]
  rw [options, body_eq inside, optionValues_cons (endsStatement_stop cursor), next]
  cases equals : cursor.advance.peek.isMark '=' with
  | false =>
      rw [options, stop_advance inside]
      rfl
  | true =>
      have atEquals := isAtStop_of_isMark equals (by decide)
      have stays := (StaysInside.ofAdvance inside).advance atEquals
      have value : cursor.advance.body.tail.head?.getD cursor.stop = cursor.advance.peekNext := by
        rw [body_eq atEquals, List.tail_cons, ← peek_advance atEquals, peek_eq, stays.stop_eq]
      rw [value]
      cases named : cursor.advance.peekNext.name? with
      | none =>
          rw [options, stop_advance inside]
      | some name =>
          have atValue : cursor.advance.advance.isAtStop = false :=
            isAtStop_of_name? ((peek_advance atEquals).symm ▸ named)
          have behind : cursor.advance.body.tail.tail = cursor.advance.advance.advance.body := by
            rw [body_eq atEquals, List.tail_cons, body_eq atValue, List.tail_cons]
          rw [options, options, stop_advance inside, (stays.advance atValue).stop_eq, behind,
            peek_advance atEquals]

/-- The options of a step are those among the tokens of the statement. -/
theorem collectOptions_eq (cursor : Cursor) (options : StepOptions) :
    (cursor.collectOptions options).1 =
      { step := options.step.addOptions cursor.options.values
        diagnostics := cursor.options.diagnostics.reverse ++ options.diagnostics } := by
  induction cursor, options using collectOptions.induct with
  | case1 cursor options atStop =>
      rw [collectOptions, dif_pos atStop, Cursor.options, body_of_isAtStop atStop]
      simp [optionValues, ProcStep.addOptions]
  | case2 cursor options inside notOption ih =>
      rw [collectOptions, dif_neg inside, options_eq (Bool.eq_false_iff.mpr inside), notOption]
      exact ih
  | case3 cursor options inside option isOption equals missing ih =>
      rw [collectOptions, dif_neg inside, options_eq (Bool.eq_false_iff.mpr inside), isOption]
      simp only [dif_pos equals, if_pos equals]
      rw [missing]
      dsimp only
      rw [ih]
      simp
  | case4 cursor options inside option isOption equals name named ih =>
      rw [collectOptions, dif_neg inside, options_eq (Bool.eq_false_iff.mpr inside), isOption]
      simp only [dif_pos equals, if_pos equals]
      rw [named]
      dsimp only
      rw [ih, ProcStep.addOptions_cons]
  | case5 cursor options inside option isOption notEquals ih =>
      rw [collectOptions, dif_neg inside, options_eq (Bool.eq_false_iff.mpr inside), isOption]
      simp only [dif_neg notEquals, if_neg notEquals]
      exact ih

end Cursor

/-! ### Whole statements -/

namespace Cursor

variable {cursor : Cursor}

theorem readStepOptions_eq (step : ProcStep) (cursor : Cursor) :
    (cursor.readStepOptions step).1 =
      ⟨[.other], cursor.options.diagnostics, some (step.addOptions cursor.options.values)⟩ := by
  have collected := collectOptions_eq cursor { step }
  unfold readStepOptions
  dsimp only
  rw [collected]
  simp

theorem readSource_eq (cursor : Cursor) :
    cursor.readSource.1 =
      ⟨[(readSourceStatement cursor.peek cursor.advance.body).1],
        (readSourceStatement cursor.peek cursor.advance.body).2, none⟩ := by
  have collected := collectSources_eq cursor.advance {}
  unfold readSource readSourceStatement
  generalize cursor.advance.collectSources {} = found at collected ⊢
  obtain ⟨operands, moved⟩ := found
  dsimp only at collected ⊢
  rw [collected, readRoles_eq, SourceOperands.behind, SourceOperands.diagnostics]
  generalize ReadPlace.item.behind cursor.advance.body = place
  generalize ReadPlace.item.roles cursor.advance.body = roles
  cases place <;> cases tokensWithRole .stray roles <;> cases tokensWithRole .source roles <;>
    simp [ReadPlace.unclosed?]

/-- The operands of a statement begin with the token behind the keyword, unless this one stops the
    statement. -/
theorem operands_cases (inside : cursor.isAtStop = false) :
    cursor.advance.body = [] ∧ cursor.advance.peek = cursor.stop ∧
        cursor.advance.peek.name? = none ∨
      cursor.advance.body = cursor.advance.peek :: cursor.advance.advance.body ∧
        cursor.advance.advance.stop = cursor.stop := by
  cases atStop : cursor.advance.isAtStop with
  | true =>
      have same : cursor.advance.peek = cursor.stop := by
        rw [← stop_of_isAtStop atStop, stop_advance inside]
      exact .inl ⟨body_of_isAtStop atStop, same, name?_of_endsStatement atStop⟩
  | false =>
      exact .inr ⟨body_eq atStop, by rw [stop_advance atStop, stop_advance inside]⟩

/-- A statement in no procedure step is told by its tokens and the one that stops it. -/
theorem readStatement_eq (inside : cursor.isAtStop = false) :
    cursor.readStatement.1 = cursor.segment.readFresh := by
  have operands := operands_cases inside
  unfold readStatement Segment.readFresh
  rw [segment, body_eq inside]
  dsimp only
  cases cursor.peek.keyword? with
  | none =>
      rfl
  | some keyword =>
      cases keyword with
      | data =>
          unfold readDatasetDef
          rcases operands with ⟨none, _, notNamed⟩ | ⟨some, _⟩
          · simp [none, notNamed]
          · cases named : cursor.advance.peek.name? <;> simp [some, named]
      | infile =>
          have first : cursor.advance.body.head?.getD cursor.stop = cursor.advance.peek := by
            rw [peek_eq, stop_advance inside]
          unfold readExternal readExternalStatement
          cases kind : cursor.advance.peek.kind <;> simp [first, kind]
      | proc =>
          unfold readProc
          rcases operands with ⟨none, _, notNamed⟩ | ⟨some, same⟩
          · simp [none, notNamed]
          · cases named : cursor.advance.peek.name? <;>
              simp [some, named, readStepOptions_eq, options, same]
      | set | merge | update | modify =>
          exact readSource_eq cursor
      | run | quit =>
          rfl

/-- So is a statement behind which a step may be open. -/
theorem readInStep_eq (inside : cursor.isAtStop = false) (openStep : Option ProcStep) :
    (cursor.readInStep openStep).1 = cursor.segment.read openStep := by
  have first : cursor.segment.body.head? = some cursor.peek := by rw [segment, body_eq inside]; rfl
  cases openStep with
  | none =>
      exact readStatement_eq inside
  | some step =>
      rw [readInStep, Segment.read, first, Option.bind_some]
      dsimp only
      split
      · rfl
      · split
        · rw [readStatement_eq inside]
        · exact readStepOptions_eq step cursor

end Cursor

end DatasetLineage
