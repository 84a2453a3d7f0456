/-
Module: DatasetLineage.Proofs.TokenUse
Purpose: Which tokens the statements of a program are made from. Every mention in a statement is of
  a token of the kind that it needs, and the tokens of the statements, one statement after the
  other, are a part of the program in its own order. So no token is used twice, though a procedure
  step takes its tokens from many segments: what the open step holds is used when it is complete,
  and nothing else of its segments is.
Main exports: Statement.MadeFrom, AreMadeFrom, AreRoles, areRoles_readRoles, HeldBy,
  Segment.areMadeFrom_read, areMadeFrom_statementsFrom, Parsed.areMadeFrom_ofTokens
-/
import DatasetLineage.Proofs.ProcedureOptions

namespace DatasetLineage

open List (Forall₂)

/-- How a statement is made from tokens, which are given in the order in which they stand.
    - The datasets of a step are `values`, and its inputs and its outputs share these out between
      them. Each of the two keeps the order. -/
inductive Statement.MadeFrom : Statement → List Token → Prop where
  | datasetDef {name : Token} (isName : name.name?.isSome = true) :
      MadeFrom (.datasetDef name.mention) [name]
  | readSource {keyword : Token} {names : List Token}
      (reads : keyword.keyword?.any Keyword.readsDatasets = true) (nonempty : names ≠ [])
      (areNames : ∀ name ∈ names, name.name?.isSome = true) :
      MadeFrom (.readSource keyword.mention (names.map Token.mention)) (keyword :: names)
  | readExternal {keyword path : Token} {value : String}
      (reads : keyword.keyword? = some .infile) (isString : path.kind = .string value) :
      MadeFrom (.readExternal keyword.mention path.mention) [keyword, path]
  | procStep {procedure : Token} {inputs outputs values : List Token}
      (isName : procedure.name?.isSome = true)
      (areNames : ∀ value ∈ values, value.name?.isSome = true)
      (inputsInOrder : inputs.Sublist values) (outputsInOrder : outputs.Sublist values)
      (sharedOut : (inputs ++ outputs).Perm values) :
      MadeFrom
        (.procStep ⟨procedure.mention, inputs.map Token.mention, outputs.map Token.mention⟩)
        (procedure :: values)
  | other : MadeFrom .other []

/-- Whether statements are made from tokens, no token is used twice, and reading the tokens of one
    statement after those of the other keeps their order. -/
def AreMadeFrom (statements : List Statement) (tokens : List Token) : Prop :=
  ∃ used, Forall₂ Statement.MadeFrom statements used ∧ used.flatten.Sublist tokens

namespace AreMadeFrom

variable {statements statements' : List Statement} {tokens tokens' : List Token}

theorem nil (tokens : List Token) : AreMadeFrom [] tokens :=
  ⟨[], .nil, List.nil_sublist tokens⟩

theorem single {statement : Statement} (made : statement.MadeFrom tokens)
    (part : tokens.Sublist tokens') : AreMadeFrom [statement] tokens' :=
  ⟨[tokens], .cons made .nil, by simpa using part⟩

theorem append (first : AreMadeFrom statements tokens)
    (later : AreMadeFrom statements' tokens') :
    AreMadeFrom (statements ++ statements') (tokens ++ tokens') := by
  obtain ⟨used, made, part⟩ := first
  obtain ⟨used', made', part'⟩ := later
  refine ⟨used ++ used', List.rel_append made made', ?_⟩
  rw [List.flatten_append]
  exact part.append part'

theorem mono (made : AreMadeFrom statements tokens) (part : tokens.Sublist tokens') :
    AreMadeFrom statements tokens' := by
  obtain ⟨used, each, within⟩ := made
  exact ⟨used, each, within.trans part⟩

/-- Every one of the statements is made from a part of the tokens. -/
theorem exists_madeFrom (made : AreMadeFrom statements tokens) {statement : Statement}
    (member : statement ∈ statements) :
    ∃ part : List Token, statement.MadeFrom part ∧ part.Sublist tokens := by
  obtain ⟨used, each, within⟩ := made
  obtain ⟨i, bound, rfl⟩ := List.mem_iff_getElem.mp member
  have bound' : i < used.length := each.length_eq ▸ bound
  exact ⟨used[i], each.get bound bound',
    (List.sublist_flatten_of_mem (List.getElem_mem bound')).trans within⟩

end AreMadeFrom

/-! ### Operands of read statements -/

section Operands

variable {token opening : Token} {place : ReadPlace}

/-- At any place a token is taken as at the start of an operand, or it is passed over and the group
    that is open behind it, if any, was open in front of it. -/
theorem ReadPlace.take_cases (place : ReadPlace) (token : Token) :
    place.take token = takeItem token ∨
      ∃ next, place.take token = (.passed, next) ∧
        ∀ opening ∈ next.unclosed?, opening ∈ place.unclosed? := by
  cases place with
  | item =>
      exact .inl rfl
  | group opening inner =>
      right
      by_cases opens : token.isMark '(' = true
      · exact ⟨.group opening (inner + 1), by simp [take, opens], fun _ same => same⟩
      · by_cases closes : token.isMark ')' = true
        · cases inner with
          | zero =>
              exact ⟨.item, by simp [take, opens, closes], by simp [unclosed?]⟩
          | succ outer =>
              exact ⟨.group opening outer, by simp [take, opens, closes], fun _ same => same⟩
        · exact ⟨.group opening inner, by simp [take, opens, closes], fun _ same => same⟩
  | optionSeen =>
      by_cases isEquals : token.isMark '=' = true
      · exact .inr ⟨.optionValue, by simp [take, isEquals], by simp [unclosed?]⟩
      · exact .inl (by simp [take, isEquals])
  | optionValue =>
      exact .inr ⟨.item, rfl, by simp [unclosed?]⟩

theorem ReadPlace.isSome_name?_of_take (source : (place.take token).1 = .source) :
    token.name?.isSome = true := by
  rcases place.take_cases token with asItem | ⟨next, passed, _⟩
  · rw [asItem] at source
    have takes := takesItem token
    generalize takeItem token = taken at source takes
    cases takes with
    | source isSource =>
        obtain ⟨name, kind, _⟩ := Token.exists_name_of_isSource isSource
        simp [Token.name?, kind]
    | _ =>
        cases source
  · simp [passed] at source

/-- A group that is open behind a token was open in front of it, or the token opens it. -/
theorem ReadPlace.opens_of_take (inGroup : opening ∈ (place.take token).2.unclosed?) :
    opening ∈ place.unclosed? ∨ opening = token ∧ (place.take token).1 = .passed := by
  rcases place.take_cases token with asItem | ⟨next, passed, stays⟩
  · rw [asItem] at inGroup ⊢
    have takes := takesItem token
    generalize takeItem token = taken at inGroup takes ⊢
    cases takes with
    | opens =>
        exact .inr ⟨(Option.some.inj inGroup).symm, rfl⟩
    | _ =>
        exact absurd inGroup (by simp [unclosed?])
  · rw [passed] at inGroup
    exact .inl (stays opening inGroup)

theorem readRoles_concat (front : List Token) (last : Token) :
    readRoles (front ++ [last]) =
      ((readRoles front).1 ++ [(last, ((readRoles front).2.take last).1)],
        ((readRoles front).2.take last).2) := by
  simp [readRoles, ReadRoles.add]

/-- How the roles of operands stand to them.
    - `operands`: every operand has one.
    - `sources`: a source is an identifier.
    - `opening`: the group that is open at the end was opened by an operand that is passed over. -/
structure AreRoles (operands : List Token) (roles : List (Token × Role)) (place : ReadPlace) :
    Prop where
  operands : roles.map Prod.fst = operands
  sources : ∀ token, (token, Role.source) ∈ roles → token.name?.isSome = true
  opening : ∀ opening ∈ place.unclosed?, (opening, Role.passed) ∈ roles

theorem areRoles_readRoles (operands : List Token) :
    AreRoles operands (readRoles operands).1 (readRoles operands).2 := by
  induction operands using List.reverseRec with
  | nil =>
      exact ⟨rfl, fun _ member => absurd member List.not_mem_nil,
        by simp [readRoles, ReadPlace.unclosed?]⟩
  | append_singleton front last ih =>
      rw [readRoles_concat]
      refine ⟨by simp [ih.operands], ?_, ?_⟩
      · intro token member
        rcases List.mem_append.mp member with inFront | isLast
        · exact ih.sources token inFront
        · rw [List.mem_singleton, Prod.mk.injEq] at isLast
          obtain ⟨rfl, source⟩ := isLast
          exact ReadPlace.isSome_name?_of_take source.symm
      · intro opening inGroup
        rw [List.mem_append, List.mem_singleton]
        rcases ReadPlace.opens_of_take inGroup with before | ⟨rfl, passed⟩
        · exact .inl (ih.opening opening before)
        · exact .inr (by rw [passed])

theorem mem_tokensWithRole {role : Role} {roles : List (Token × Role)} :
    token ∈ tokensWithRole role roles ↔ (token, role) ∈ roles := by
  simp [tokensWithRole]

theorem tokensWithRole_sublist (role : Role) (roles : List (Token × Role)) :
    (tokensWithRole role roles).Sublist (roles.map Prod.fst) := by
  induction roles with
  | nil =>
      exact List.Sublist.refl []
  | cons pair rest ih =>
      rw [tokensWithRole, List.filterMap_cons, ← tokensWithRole, List.map_cons]
      by_cases has : pair.2 = role
      · simpa [has] using ih
      · simpa [has] using ih.cons pair.1

/-- A statement that reads datasets is made from its keyword and from operands of it. One that names
    no dataset adds nothing. -/
theorem areMadeFrom_readSourceStatement {keyword : Token} (operands : List Token)
    (reads : keyword.keyword?.any Keyword.readsDatasets = true) :
    AreMadeFrom [(readSourceStatement keyword operands).1] (keyword :: operands) := by
  have areRoles := areRoles_readRoles operands
  have part := tokensWithRole_sublist .source (readRoles operands).1
  rw [areRoles.operands] at part
  have areNames : ∀ name ∈ tokensWithRole .source (readRoles operands).1,
      name.name?.isSome = true :=
    fun name member => areRoles.sources name (mem_tokensWithRole.mp member)
  unfold readSourceStatement
  cases sources : tokensWithRole .source (readRoles operands).1 with
  | nil =>
      simp only [sources]
      exact .single .other (List.nil_sublist _)
  | cons first more =>
      simp only [sources]
      rw [sources] at part areNames
      exact .single (.readSource reads (List.cons_ne_nil first more) areNames)
        (part.cons_cons keyword)

/-- A statement that reads an external file is made from its keyword and the operand behind it. The
    token that stops it is no path. -/
theorem areMadeFrom_readExternalStatement {keyword stop : Token} (operands : List Token)
    (isInfile : keyword.keyword? = some .infile) (noPath : ∀ value, stop.kind ≠ .string value) :
    AreMadeFrom [(readExternalStatement keyword operands stop).1] (keyword :: operands) := by
  cases operands with
  | nil =>
      cases kind : stop.kind with
      | string value =>
          exact absurd kind (noPath value)
      | _ =>
          simpa [readExternalStatement, kind] using AreMadeFrom.single .other (List.nil_sublist _)
  | cons path rest =>
      cases kind : path.kind with
      | string value =>
          have front : [keyword, path].Sublist (keyword :: path :: rest) :=
            ((List.nil_sublist rest).cons_cons path).cons_cons keyword
          simpa [readExternalStatement, kind] using
            AreMadeFrom.single (.readExternal isInfile kind) front
      | _ =>
          simpa [readExternalStatement, kind] using AreMadeFrom.single .other (List.nil_sublist _)

end Operands

/-! ### Options of procedure steps -/

section Options

/-- The values of options are mentions of identifiers among the tokens, in order. -/
theorem exists_values_optionValues (stop : Token) (tokens : List Token) :
    ∃ found : List (DatasetOption × Token),
      (optionValues stop tokens).values = found.map (Prod.map id Token.mention) ∧
        (found.map Prod.snd).Sublist tokens ∧
          ∀ value ∈ found.map Prod.snd, value.name?.isSome = true := by
  induction tokens using option_induction with
  | nil =>
      exact ⟨[], rfl, List.Sublist.refl [], fun _ member => absurd member List.not_mem_nil⟩
  | skip token rest noOption ih =>
      obtain ⟨found, values, part, areNames⟩ := ih
      exact ⟨found, (optionValues_of_none stop noOption).trans values, part.cons token, areNames⟩
  | take name token equals value rest option ih =>
      obtain ⟨found, values, part, areNames⟩ := ih
      refine ⟨(name, value) :: found, by rw [option.optionValues, values]; rfl, ?_, ?_⟩
      · exact ((part.cons_cons value).cons equals).cons token
      · exact List.forall_mem_cons.mpr ⟨option.isName, areNames⟩

/-- The tokens that an open step holds: the name of its procedure, and the datasets of its options
    in order. No step holds none. -/
inductive HeldBy : Option ProcStep → List Token → Prop where
  | noStep : HeldBy none []
  | openStep {procedure : Token} {found : List (DatasetOption × Token)}
      (isName : procedure.name?.isSome = true)
      (areNames : ∀ value ∈ found.map Prod.snd, value.name?.isSome = true) :
      HeldBy
        (some (ProcStep.addOptions ⟨procedure.mention, [], []⟩
          (found.map (Prod.map id Token.mention))))
        (procedure :: found.map Prod.snd)

variable {step : ProcStep} {held : List Token}

/-- A complete step is made from the tokens that it held. -/
theorem HeldBy.madeFrom (holds : HeldBy (some step) held) :
    (Statement.procStep step).MadeFrom held := by
  obtain _ | ⟨isName, areNames⟩ := holds
  next procedure found =>
  -- options that name an input and those that name an output share the datasets out
  have shared := (List.filter_append_perm (fun option => option.1.isInput) found).map Prod.snd
  rw [List.map_append] at shared
  have made := Statement.MadeFrom.procStep isName areNames
    ((List.filter_sublist (p := fun option => option.1.isInput)).map Prod.snd)
    ((List.filter_sublist (p := fun option => !option.1.isInput)).map Prod.snd) shared
  simpa [ProcStep.addOptions, List.filter_map, Function.comp_def] using made

/-- A step behind the name of its procedure. -/
theorem HeldBy.opened {procedure : Token} (isName : procedure.name?.isSome = true) :
    HeldBy (some ⟨procedure.mention, [], []⟩) [procedure] := by
  have noOptions : ∀ value ∈ ([] : List (DatasetOption × Token)).map Prod.snd,
      value.name?.isSome = true :=
    fun _ member => absurd member List.not_mem_nil
  exact .openStep isName noOptions

/-- Options of further tokens add datasets to those that the step holds. -/
theorem HeldBy.addOptions (holds : HeldBy (some step) held) (stop : Token) (tokens : List Token) :
    ∃ added : List Token, added.Sublist tokens ∧
      HeldBy (some (step.addOptions (optionValues stop tokens).values)) (held ++ added) := by
  obtain ⟨found, values, part, areNames⟩ := exists_values_optionValues stop tokens
  obtain _ | ⟨isName, areNames'⟩ := holds
  next procedure found' =>
  refine ⟨found.map Prod.snd, part, ?_⟩
  rw [values, ProcStep.addOptions_addOptions, ← List.map_append, List.cons_append,
    ← List.map_append]
  refine .openStep isName ?_
  rw [List.map_append]
  exact List.forall_mem_append.mpr ⟨areNames', areNames⟩

end Options

/-! ### Segments -/

section Segments

theorem Cut.stops_foldl_add {tokens : List Token} {segment : Segment}
    (member : segment ∈ (tokens.foldl Cut.add ⟨[], []⟩).segments) :
    segment.stop.isMark ';' = true := by
  induction tokens using List.reverseRec with
  | nil =>
      exact absurd member List.not_mem_nil
  | append_singleton front last ih =>
      rw [List.foldl_append, List.foldl_cons, List.foldl_nil, Cut.add] at member
      by_cases separates : last.isMark ';' = true
      · rw [if_pos separates] at member
        rcases List.mem_cons.mp member with rfl | before
        · exact separates
        · exact ih before
      · rw [if_neg separates] at member
        exact ih member

theorem isEnd_endToken (tokens : List Token) : (endToken tokens).isEnd = true := by
  unfold endToken
  cases found : tokens.find? Token.isEnd with
  | none =>
      rfl
  | some token =>
      exact List.find?_some found

/-- What stops a segment is a semicolon or the end of the text. -/
theorem Segment.stop_of_mem_ofTokens {tokens : List Token} {segment : Segment}
    (member : segment ∈ ofTokens tokens) :
    segment.stop.isMark ';' = true ∨ segment.stop.isEnd = true := by
  have kept := List.mem_reverse.mp (List.mem_filter.mp member).1
  rcases List.mem_cons.mp kept with rfl | complete
  · exact .inr (isEnd_endToken tokens)
  · exact .inl (Cut.stops_foldl_add complete)

theorem Segment.stop_ne_string {tokens : List Token} {segment : Segment}
    (member : segment ∈ ofTokens tokens) (value : String) : segment.stop.kind ≠ .string value := by
  intro isString
  rcases stop_of_mem_ofTokens member with semicolon | isEnd
  · exact nomatch isString.symm.trans (eq_of_beq semicolon)
  · exact nomatch isString.symm.trans (eq_of_beq isEnd)

variable {segment : Segment}

/-- A segment that stands in no step uses some of its tokens, and the step that it opens holds some
    that stand behind these. -/
theorem Segment.areMadeFrom_readFresh (noPath : ∀ value, segment.stop.kind ≠ .string value) :
    ∃ done held, AreMadeFrom segment.readFresh.statements done ∧
      HeldBy segment.readFresh.openStep held ∧ (done ++ held).Sublist segment.body := by
  obtain ⟨body, stop⟩ := segment
  cases body with
  | nil =>
      exact ⟨[], [], .nil [], .noStep, List.nil_sublist []⟩
  | cons first operands =>
      have whole : (first :: operands ++ []).Sublist (first :: operands) := by simp
      have read := readsFresh first operands stop
      generalize readFresh ⟨first :: operands, stop⟩ = reading at read
      cases read with
      | @defines name rest shape isName =>
          subst shape
          refine ⟨[name], [], .single (.datasetDef isName) (List.Sublist.refl _), .noStep, ?_⟩
          exact ((List.nil_sublist rest).cons_cons name).cons first
      | @opens name rest shape isName =>
          subst shape
          obtain ⟨added, part, holds⟩ := (HeldBy.opened isName).addOptions stop rest
          refine ⟨[], name :: added, .single .other (List.nil_sublist []), holds, ?_⟩
          exact (part.cons_cons name).cons first
      | readsFile isInfile =>
          exact ⟨_, [], areMadeFrom_readExternalStatement operands isInfile noPath, .noStep, whole⟩
      | readsDatasets reads =>
          exact ⟨_, [], areMadeFrom_readSourceStatement operands reads, .noStep, whole⟩
      | faulty fault =>
          exact ⟨[], [], .single .other (List.nil_sublist []), .noStep, List.nil_sublist _⟩
      | idle =>
          exact ⟨[], [], .single .other (List.nil_sublist []), .noStep, List.nil_sublist _⟩

/-- What the open step holds is used when it is complete. Until then it grows by tokens of the
    segments that belong to it, and these use none. -/
theorem Segment.areMadeFrom_read (noPath : ∀ value, segment.stop.kind ≠ .string value)
    {openStep : Option ProcStep} {held : List Token} (holds : HeldBy openStep held) :
    ∃ done held', AreMadeFrom (segment.read openStep).statements done ∧
      HeldBy (segment.read openStep).openStep held' ∧
        (done ++ held').Sublist (held ++ segment.body) := by
  cases openStep with
  | none =>
      cases holds
      exact areMadeFrom_readFresh noPath
  | some step =>
      cases bounds : segment.boundsStep with
      | false =>
          obtain ⟨added, part, holds'⟩ := holds.addOptions segment.stop segment.body
          rw [read_some_of_not_boundsStep bounds]
          exact ⟨[], held ++ added, .single .other (List.nil_sublist []), holds',
            part.append_left held⟩
      | true =>
          obtain ⟨done, held', made, holds', part⟩ := areMadeFrom_readFresh noPath
          rw [read_some_of_boundsStep bounds]
          refine ⟨held ++ done, held', ?_, holds', ?_⟩
          · exact (AreMadeFrom.single holds.madeFrom (List.Sublist.refl held)).append made
          · rw [List.append_assoc]
            exact part.append_left held

/-- The statements of segments are made from what the open step holds in front of them and from
    their tokens. -/
theorem areMadeFrom_statementsFrom {segments : List Segment}
    (noPaths : ∀ segment ∈ segments, ∀ value, segment.stop.kind ≠ .string value)
    {openStep : Option ProcStep} {held : List Token} (holds : HeldBy openStep held) :
    AreMadeFrom (statementsFrom openStep segments) (held ++ segments.flatMap Segment.body) := by
  induction segments generalizing openStep held with
  | nil =>
      cases openStep with
      | none =>
          exact .nil _
      | some step =>
          exact .single holds.madeFrom (List.sublist_append_left held _)
  | cons segment rest ih =>
      obtain ⟨here, later⟩ := List.forall_mem_cons.mp noPaths
      obtain ⟨done, held', made, holds', part⟩ := Segment.areMadeFrom_read here holds
      rw [statementsFrom_cons, List.flatMap_cons, ← List.append_assoc]
      refine (made.append (ih later holds')).mono ?_
      rw [← List.append_assoc]
      exact part.append_right _

/-- The statements of tokens are made from those in front of the end of the text, each used at most
    once and in order. -/
theorem Parsed.areMadeFrom_ofTokens (tokens : List Token) :
    AreMadeFrom (ofTokens tokens).statements (tokens.takeWhile (!·.isEnd)) := by
  have noPaths : ∀ segment ∈ Segment.ofTokens tokens, ∀ value, segment.stop.kind ≠ .string value :=
    fun _ member => Segment.stop_ne_string member
  have made := areMadeFrom_statementsFrom noPaths .noStep
  rw [ofTokens_eq_ofSegments]
  exact made.mono (Segment.flatMap_body_sublist_takeWhile tokens)

theorem Parsed.areMadeFrom_ofScanned (scanned : Scanned) :
    AreMadeFrom (ofScanned scanned).statements scanned.tokens :=
  (areMadeFrom_ofTokens scanned.tokens).mono (List.takeWhile_sublist _)

theorem Parsed.areMadeFrom_ofText (text : String) :
    AreMadeFrom (ofText text).statements (Scanned.ofText text).tokens :=
  areMadeFrom_ofScanned (Scanned.ofText text)

end Segments

end DatasetLineage
