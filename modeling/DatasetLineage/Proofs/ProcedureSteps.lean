/-
Module: DatasetLineage.Proofs.ProcedureSteps
Purpose: How the statements of a program stand to its segments. Every segment gives one statement
  of its own. Every segment that opens a procedure step gives one step besides, which stands where
  the step is complete: in front of the next segment that bounds steps, or at the end. The
  datasets of a step are those of the options of the segments that belong to it.
Main exports: stepsOf, besidesSteps, Segment.statement, Segment.procedure?, Segment.options,
  StepSpan, StepSpan.step, Segment.bodies_ofTokens, ReadsFresh, Segment.statements_read,
  stepsOf_statementsFrom, statementsFrom_of_procedure?, Interleaved, Parsed.interleaved_ofTokens
-/
import DatasetLineage.Proofs.StepBoundaries

namespace DatasetLineage

/-- The step that the statement is, if it is one. -/
def Statement.procStep? : Statement → Option ProcStep
  | .procStep step => some step
  | _ => none

/-- Whether the statement reads datasets or an external file. -/
def Statement.reads : Statement → Bool
  | .readSource .. | .readExternal .. => true
  | _ => false

/-- The procedure steps among statements. -/
def stepsOf (statements : List Statement) : List ProcStep :=
  statements.filterMap Statement.procStep?

/-- The statements that are no procedure steps. -/
def besidesSteps (statements : List Statement) : List Statement :=
  statements.filter (·.procStep?.isNone)

namespace Segment

/-- The statement that the segment gives itself. In a procedure step it adds nothing by itself,
    unless it bounds steps. -/
def statement (inStep : Bool) (segment : Segment) : Statement :=
  if inStep && !segment.boundsStep then .other else segment.readFresh.statements.head?.getD .other

/-- The name of the procedure whose step the segment opens. -/
def procedure? (segment : Segment) : Option Mention :=
  if segment.opensStep then segment.body[1]?.map Token.mention else none

/-- The tokens of the segment among which options are looked for: those behind the name of a
    procedure, or all. -/
def optionTokens (segment : Segment) : List Token :=
  if segment.opensStep then segment.body.drop 2 else segment.body

/-- The datasets that the options of the segment name. -/
def options (segment : Segment) : List (DatasetOption × Mention) :=
  (optionValues segment.stop segment.optionTokens).values

end Segment

/-- The procedure of a step and the segments that belong to it, the one that opens it first. -/
structure StepSpan where
  procedure : Mention
  segments : List Segment

/-- The steps that segments open, each with the segments up to the next one that bounds steps. -/
def StepSpan.all : List Segment → List StepSpan
  | [] => []
  | segment :: rest =>
    match segment.procedure? with
    | some procedure => ⟨procedure, segment :: rest.takeWhile (!·.boundsStep)⟩ :: all rest
    | none => all rest

/-- The step with the datasets of all options of its segments. -/
def StepSpan.step (span : StepSpan) : ProcStep :=
  ProcStep.addOptions ⟨span.procedure, [], []⟩ (span.segments.flatMap Segment.options)

/-! ### Bodies of segments -/

section Bodies

theorem modifyHead_nil_append (parts : List (List Token)) :
    parts.modifyHead ([] ++ ·) = parts :=
  congrFun List.modifyHead_id parts

theorem Cut.bodies_foldl_add (body tokens : List Token) (stop : Token) :
    ((⟨(tokens.foldl Cut.add ⟨[], body⟩).body.reverse, stop⟩ ::
      (tokens.foldl Cut.add ⟨[], body⟩).segments).reverse).map Segment.body =
      (tokens.splitOnP (·.isMark ';')).modifyHead (body.reverse ++ ·) := by
  induction tokens generalizing body with
  | nil =>
      simp
  | cons token rest ih =>
      rw [List.foldl_cons, Cut.add, List.splitOnP_cons_eq_if_modifyHead]
      by_cases separates : token.isMark ';' = true
      · have later := ih []
        rw [List.reverse_nil, modifyHead_nil_append] at later
        rw [if_pos separates, if_pos separates, Cut.foldl_add, ← later]
        simp
      · rw [if_neg separates, if_neg separates, ih, List.modifyHead_modifyHead]
        congr 1
        funext front
        simp

/-- The segments of tokens are the stretches between semicolons, up to the first token for the end
    of the text, that are not empty. -/
theorem Segment.bodies_ofTokens (tokens : List Token) :
    (ofTokens tokens).map Segment.body =
      ((tokens.takeWhile (!·.isEnd)).splitOnP (·.isMark ';')).filter (!·.isEmpty) := by
  have bodies := Cut.bodies_foldl_add [] (tokens.takeWhile (!·.isEnd)) (endToken tokens)
  rw [List.reverse_nil, modifyHead_nil_append] at bodies
  rw [← bodies, List.filter_map]
  rfl

theorem Segment.body_ne_nil_of_mem_ofTokens {tokens : List Token} {segment : Segment}
    (member : segment ∈ ofTokens tokens) : segment.body ≠ [] := by
  have kept := (List.mem_filter.mp member).2
  simpa using kept

end Bodies

/-! ### One segment -/

section Steps

variable {segment : Segment}

theorem Segment.exists_body_of_opensStep (opens : segment.opensStep = true) :
    ∃ first name rest, segment.body = first :: name :: rest ∧
      first.keyword? = some .proc ∧ name.name?.isSome = true := by
  unfold opensStep at opens
  split at opens
  · next first name rest body =>
      rw [Bool.and_eq_true] at opens
      exact ⟨first, name, rest, body, eq_of_beq opens.1, opens.2⟩
  · exact absurd opens Bool.false_ne_true

theorem Segment.isSome_procedure? (segment : Segment) :
    segment.procedure?.isSome = segment.opensStep := by
  unfold procedure?
  cases opens : segment.opensStep with
  | false =>
      rfl
  | true =>
      obtain ⟨first, name, rest, body, _, _⟩ := exists_body_of_opensStep opens
      rw [if_pos rfl, body]
      rfl

theorem Segment.boundsStep_of_opensStep (opens : segment.opensStep = true) :
    segment.boundsStep = true := by
  obtain ⟨first, name, rest, body, isProc, _⟩ := exists_body_of_opensStep opens
  simp [boundsStep, body, isProc]

theorem Segment.opensStep_eq_false (bounds : segment.boundsStep = false) :
    segment.opensStep = false :=
  Bool.eq_false_iff.mpr fun opens =>
    absurd (boundsStep_of_opensStep opens) (Bool.eq_false_iff.mp bounds)

/-- Only a segment that opens a step names the procedure of one. -/
theorem Segment.procedure?_eq_none (opensNot : segment.opensStep = false) :
    segment.procedure? = none := by
  rw [procedure?, opensNot, if_neg Bool.false_ne_true]

theorem ProcStep.addOptions_addOptions (step : ProcStep)
    (values others : List (DatasetOption × Mention)) :
    (step.addOptions values).addOptions others = step.addOptions (values ++ others) := by
  simp [addOptions]

theorem procStep?_readSourceStatement (keyword : Token) (operands : List Token) :
    (readSourceStatement keyword operands).1.procStep? = none := by
  cases sources : tokensWithRole .source (readRoles operands).1 with
  | nil =>
      simp [readSourceStatement, sources, Statement.procStep?]
  | cons first rest =>
      simp [readSourceStatement, sources, Statement.procStep?]

theorem procStep?_readExternalStatement (keyword : Token) (operands : List Token) (stop : Token) :
    (readExternalStatement keyword operands stop).1.procStep? = none := by
  cases kind : (operands.head?.getD stop).kind <;>
    simp [readExternalStatement, kind, Statement.procStep?]

/-- What a segment is read as that stands in no step and begins with `first`.
    - `defines`, `opens`: a name stands behind DATA or behind PROC.
    - `readsFile`, `readsDatasets`: the first token is the keyword of a statement that reads.
    - `faulty`, `idle`: the segment adds nothing, and in the former its first token is reported. -/
inductive ReadsFresh (first : Token) (operands : List Token) (stop : Token) :
    Contribution → Prop where
  | defines {name : Token} {rest : List Token} (shape : operands = name :: rest)
      (isName : name.name?.isSome = true) :
      ReadsFresh first operands stop ⟨[.datasetDef name.mention], [], none⟩
  | opens {name : Token} {rest : List Token} (shape : operands = name :: rest)
      (isName : name.name?.isSome = true) :
      ReadsFresh first operands stop
        ⟨[.other], (optionValues stop rest).diagnostics,
          some (ProcStep.addOptions ⟨name.mention, [], []⟩ (optionValues stop rest).values)⟩
  | readsFile (isInfile : first.keyword? = some .infile) :
      ReadsFresh first operands stop
        ⟨[(readExternalStatement first operands stop).1],
          (readExternalStatement first operands stop).2, none⟩
  | readsDatasets (reads : first.keyword?.any Keyword.readsDatasets = true) :
      ReadsFresh first operands stop
        ⟨[(readSourceStatement first operands).1], (readSourceStatement first operands).2, none⟩
  | faulty (fault : Fault) : ReadsFresh first operands stop ⟨[.other], [first.fault fault], none⟩
  | idle : ReadsFresh first operands stop ⟨[.other], [], none⟩

theorem Segment.readsFresh (first : Token) (operands : List Token) (stop : Token) :
    ReadsFresh first operands stop (readFresh ⟨first :: operands, stop⟩) := by
  unfold readFresh
  cases found : first.keyword? with
  | none =>
      simpa [found] using ReadsFresh.idle
  | some keyword =>
      cases keyword with
      | data =>
          rcases operands with _ | ⟨name, rest⟩
          · simpa [found] using ReadsFresh.faulty .missingDatasetName
          · cases named : name.name? with
            | none =>
                simpa [found, named] using ReadsFresh.faulty .missingDatasetName
            | some _ =>
                have isName : name.name?.isSome = true := by rw [named]; rfl
                simpa [found, named] using ReadsFresh.defines rfl isName
      | proc =>
          rcases operands with _ | ⟨name, rest⟩
          · simpa [found] using ReadsFresh.faulty .missingProcedureName
          · cases named : name.name? with
            | none =>
                simpa [found, named] using ReadsFresh.faulty .missingProcedureName
            | some _ =>
                have isName : name.name?.isSome = true := by rw [named]; rfl
                simpa [found, named] using ReadsFresh.opens rfl isName
      | infile =>
          simpa [found] using ReadsFresh.readsFile found
      | run =>
          simpa [found, Keyword.readsDatasets] using ReadsFresh.idle
      | quit =>
          simpa [found, Keyword.readsDatasets] using ReadsFresh.idle
      | _ =>
          have reads : first.keyword?.any Keyword.readsDatasets = true := by rw [found]; rfl
          simpa [found, Keyword.readsDatasets] using ReadsFresh.readsDatasets reads

/-- A segment that has a token gives one statement when no step is open, which is no step, and
    does not read if the segment bounds steps. -/
theorem Segment.exists_statements_readFresh (nonempty : segment.body ≠ []) :
    ∃ statement : Statement, segment.readFresh.statements = [statement] ∧
      statement.procStep? = none ∧ (segment.boundsStep = true → statement.reads = false) := by
  obtain ⟨body, stop⟩ := segment
  cases body with
  | nil =>
      exact absurd rfl nonempty
  | cons first operands =>
      have read := readsFresh first operands stop
      generalize readFresh ⟨first :: operands, stop⟩ = reading at read
      cases read with
      | @defines name rest shape isName =>
          exact ⟨.datasetDef name.mention, rfl, rfl, fun _ => rfl⟩
      | readsFile isInfile =>
          refine ⟨_, rfl, procStep?_readExternalStatement first operands stop, fun bounds => ?_⟩
          simp [boundsStep, isInfile] at bounds
      | readsDatasets reads =>
          refine ⟨_, rfl, procStep?_readSourceStatement first operands, fun bounds => ?_⟩
          cases found : first.keyword? with
          | none =>
              simp [found] at reads
          | some keyword =>
              cases keyword <;> simp_all [boundsStep, Keyword.readsDatasets]
      | _ =>
          exact ⟨.other, rfl, rfl, fun _ => rfl⟩

/-- A segment that is read when no step is open opens the step that it names a procedure of. -/
theorem Segment.openStep_readFresh (segment : Segment) :
    segment.readFresh.openStep = segment.procedure?.map fun procedure =>
      ProcStep.addOptions ⟨procedure, [], []⟩ segment.options := by
  cases opens : segment.opensStep with
  | false =>
      have isSome := isSome_openStep_readFresh segment
      rw [opens, Bool.and_false, Option.isSome_eq_false_iff, Option.isNone_iff_eq_none] at isSome
      rw [isSome, procedure?_eq_none opens]
      rfl
  | true =>
      obtain ⟨first, name, rest, body, isProc, isName⟩ := exists_body_of_opensStep opens
      rw [procedure?, options, optionTokens, if_pos opens, if_pos opens]
      simp [readFresh, body, isProc, isName]

theorem Segment.statements_readFresh (nonempty : segment.body ≠ []) :
    segment.readFresh.statements = [segment.statement false] := by
  obtain ⟨statement, single, _⟩ := exists_statements_readFresh nonempty
  rw [Segment.statement, Bool.false_and, if_neg Bool.false_ne_true, single]
  rfl

/-- No segment is a procedure step itself. -/
theorem Segment.procStep?_statement (nonempty : segment.body ≠ []) (inStep : Bool) :
    (segment.statement inStep).procStep? = none := by
  obtain ⟨statement, single, noStep, _⟩ := exists_statements_readFresh nonempty
  unfold Segment.statement
  split
  · rfl
  · rw [single]
    exact noStep

theorem Segment.reads_statement_true (nonempty : segment.body ≠ []) :
    (segment.statement true).reads = false := by
  obtain ⟨statement, single, _, reads⟩ := exists_statements_readFresh nonempty
  unfold Segment.statement
  cases bounds : segment.boundsStep with
  | false =>
      rfl
  | true =>
      rw [single]
      exact reads bounds

/-- A segment that bounds steps gives the same statement in a step and in none. -/
theorem Segment.statement_of_boundsStep (bounds : segment.boundsStep = true) (inStep : Bool) :
    segment.statement inStep = segment.statement false := by
  simp [Segment.statement, bounds]

/-- A segment that does not bound steps hands its options to the open step. -/
theorem Segment.read_some_eq_options (bounds : segment.boundsStep = false) (step : ProcStep) :
    segment.read (some step) =
      ⟨[.other], (optionValues segment.stop segment.body).diagnostics,
        some (step.addOptions segment.options)⟩ := by
  rw [options, optionTokens, opensStep_eq_false bounds, if_neg Bool.false_ne_true,
    read_some_of_not_boundsStep bounds]

/-- What a segment adds: it completes the open step if it bounds steps, and gives its own
    statement. -/
theorem Segment.statements_read (nonempty : segment.body ≠ []) (openStep : Option ProcStep) :
    (segment.read openStep).statements =
      (if segment.boundsStep then openStep.toList.map Statement.procStep else []) ++
        [segment.statement openStep.isSome] := by
  cases openStep with
  | none =>
      rw [read, statements_readFresh nonempty]
      simp
  | some step =>
      cases bounds : segment.boundsStep with
      | false =>
          rw [read_some_of_not_boundsStep bounds]
          simp [Segment.statement, bounds]
      | true =>
          rw [read_some_of_boundsStep bounds, statements_readFresh nonempty,
            statement_of_boundsStep bounds (some step).isSome]
          rfl

/-- The step behind a segment: the one that it opens if it bounds steps, or else the one in front
    with the options of the segment. -/
theorem Segment.openStep_read (segment : Segment) (openStep : Option ProcStep) :
    (segment.read openStep).openStep =
      if segment.boundsStep then segment.procedure?.map fun procedure =>
        ProcStep.addOptions ⟨procedure, [], []⟩ segment.options
      else openStep.map (·.addOptions segment.options) := by
  cases bounds : segment.boundsStep with
  | false =>
      cases openStep with
      | none =>
          rw [read, openStep_readFresh, procedure?_eq_none (opensStep_eq_false bounds)]
          rfl
      | some step =>
          rw [read_some_eq_options bounds]
          rfl
  | true =>
      rw [if_pos rfl, ← openStep_readFresh]
      cases openStep with
      | none =>
          rfl
      | some step =>
          rw [read_some_of_boundsStep bounds]

end Steps

/-- The statements of segments behind which nothing follows, if a step may be open in front. -/
def statementsFrom (openStep : Option ProcStep) (segments : List Segment) : List Statement :=
  (segments.foldl Reading.add (.start openStep)).finished.statements

/-! ### A run of segments -/

section Runs

variable {segments : List Segment}

theorem statementsFrom_cons (openStep : Option ProcStep) (segment : Segment)
    (rest : List Segment) :
    statementsFrom openStep (segment :: rest) =
      (segment.read openStep).statements ++
        statementsFrom (segment.read openStep).openStep rest := by
  rw [statementsFrom, List.foldl_cons, Reading.add_eq, Reading.finished_foldl_add]
  simp [Parsed.append_def, statementsFrom]

@[simp]
theorem stepsOf_append (front back : List Statement) :
    stepsOf (front ++ back) = stepsOf front ++ stepsOf back :=
  List.filterMap_append

@[simp]
theorem besidesSteps_append (front back : List Statement) :
    besidesSteps (front ++ back) = besidesSteps front ++ besidesSteps back :=
  List.filter_append front back

theorem stepsOf_eq_nil {statements : List Statement}
    (noSteps : ∀ statement ∈ statements, statement.procStep? = none) :
    stepsOf statements = [] :=
  List.filterMap_eq_nil_iff.mpr noSteps

theorem besidesSteps_eq_self {statements : List Statement}
    (noSteps : ∀ statement ∈ statements, statement.procStep? = none) :
    besidesSteps statements = statements :=
  List.filter_eq_self.mpr fun statement member => by rw [noSteps statement member]; rfl

@[simp]
theorem stepsOf_map_procStep (steps : List ProcStep) :
    stepsOf (steps.map Statement.procStep) = steps := by
  induction steps with
  | nil =>
      rfl
  | cons step rest ih =>
      exact congrArg (step :: ·) ih

@[simp]
theorem besidesSteps_map_procStep (steps : List ProcStep) :
    besidesSteps (steps.map Statement.procStep) = [] := by
  simp [besidesSteps, Statement.procStep?]

/-- A segment gives one statement besides steps, and completes the open step if it bounds steps. -/
theorem split_statements_read {segment : Segment} (nonempty : segment.body ≠ [])
    (openStep : Option ProcStep) :
    besidesSteps (segment.read openStep).statements = [segment.statement openStep.isSome] ∧
      stepsOf (segment.read openStep).statements =
        if segment.boundsStep then openStep.toList else [] := by
  have noSteps : ∀ statement ∈ [segment.statement openStep.isSome], statement.procStep? = none :=
    List.forall_mem_singleton.mpr (Segment.procStep?_statement nonempty openStep.isSome)
  rw [Segment.statements_read nonempty, besidesSteps_append, stepsOf_append,
    besidesSteps_eq_self noSteps, stepsOf_eq_nil noSteps]
  cases segment.boundsStep with
  | false =>
      exact ⟨rfl, rfl⟩
  | true =>
      exact ⟨by simp, by simp⟩

/-- Each segment gives one statement besides steps. -/
theorem length_besidesSteps (nonempty : ∀ segment ∈ segments, segment.body ≠ [])
    (openStep : Option ProcStep) :
    (besidesSteps (statementsFrom openStep segments)).length = segments.length := by
  induction segments generalizing openStep with
  | nil =>
      cases openStep <;> rfl
  | cons segment rest ih =>
      obtain ⟨here, later⟩ := List.forall_mem_cons.mp nonempty
      rw [statementsFrom_cons, besidesSteps_append, (split_statements_read here openStep).1,
        List.length_append, ih later, List.length_singleton, List.length_cons, Nat.add_comm]

/-- The statement of a segment stands behind those of the segments in front of it. What it is
    depends on whether a step is open there. -/
theorem getElem?_besidesSteps {front back : List Segment} {segment : Segment}
    (nonempty : ∀ other ∈ front ++ segment :: back, other.body ≠ [])
    (openStep : Option ProcStep) :
    (besidesSteps (statementsFrom openStep (front ++ segment :: back)))[front.length]? =
      some (segment.statement
        (((front.filter Segment.boundsStep).getLast?.map Segment.opensStep).getD
          openStep.isSome)) := by
  induction front generalizing openStep with
  | nil =>
      have here := nonempty segment List.mem_cons_self
      rw [List.nil_append, statementsFrom_cons, besidesSteps_append,
        (split_statements_read here openStep).1]
      rfl
  | cons first rest ih =>
      obtain ⟨here, later⟩ := List.forall_mem_cons.mp nonempty
      have opened := Segment.isSome_openStep_read first openStep
      rw [List.cons_append, statementsFrom_cons, besidesSteps_append,
        (split_statements_read here openStep).1, List.length_cons, List.singleton_append,
        List.getElem?_cons_succ, ih later, opened, List.filter_cons]
      cases first.boundsStep with
      | false =>
          rfl
      | true =>
          -- the first segment tells only if no later one in front bounds steps
          cases last : (rest.filter Segment.boundsStep).getLast? with
          | none =>
              simp [List.getLast?_cons, last]
          | some other =>
              simp [List.getLast?_cons, last]

/-- The steps are the open one, with the options of the segments that still belong to it, and those
    that segments open. -/
theorem stepsOf_statementsFrom (nonempty : ∀ segment ∈ segments, segment.body ≠ [])
    (openStep : Option ProcStep) :
    stepsOf (statementsFrom openStep segments) =
      (openStep.map (·.addOptions
        ((segments.takeWhile (!·.boundsStep)).flatMap Segment.options))).toList ++
      (StepSpan.all segments).map StepSpan.step := by
  induction segments generalizing openStep with
  | nil =>
      cases openStep with
      | none =>
          rfl
      | some step =>
          simp [statementsFrom, Reading.finished, StepSpan.all, stepsOf, Statement.procStep?,
            ProcStep.addOptions]
  | cons segment rest ih =>
      obtain ⟨here, later⟩ := List.forall_mem_cons.mp nonempty
      rw [statementsFrom_cons, stepsOf_append, (split_statements_read here openStep).2, ih later,
        Segment.openStep_read, StepSpan.all]
      cases bounds : segment.boundsStep with
      | false =>
          rw [Segment.procedure?_eq_none (Segment.opensStep_eq_false bounds),
            List.takeWhile_cons_of_pos (by simp [bounds])]
          cases openStep with
          | none =>
              rfl
          | some step =>
              simp [ProcStep.addOptions_addOptions]
      | true =>
          rw [List.takeWhile_cons_of_neg (by simp [bounds])]
          cases segment.procedure? with
          | none =>
              cases openStep <;> simp [ProcStep.addOptions]
          | some procedure =>
              cases openStep <;>
                simp [StepSpan.step, ProcStep.addOptions]

theorem statementsFrom_append {front back : List Segment}
    (bounds : ∀ first ∈ back.head?, first.boundsStep = true) :
    statementsFrom none (front ++ back) =
      statementsFrom none front ++ statementsFrom none back :=
  congrArg Parsed.statements (Parsed.ofSegments_append (.inr bounds))

theorem head?_statementsFrom (nonempty : ∀ segment ∈ segments, segment.body ≠ []) :
    (statementsFrom none segments).head? = segments.head?.map (Segment.statement false) := by
  cases segments with
  | nil =>
      rfl
  | cons segment rest =>
      rw [statementsFrom_cons, Segment.statements_read (nonempty segment List.mem_cons_self)]
      cases segment.boundsStep <;> rfl

/-- Segments that belong to the open step add nothing by themselves, and the step is complete
    behind them. -/
theorem statementsFrom_inside (inside : ∀ segment ∈ segments, segment.boundsStep = false)
    (step : ProcStep) :
    statementsFrom (some step) segments =
      segments.map (fun _ => .other) ++
        [.procStep (step.addOptions (segments.flatMap Segment.options))] := by
  induction segments generalizing step with
  | nil =>
      simp [statementsFrom, Reading.finished, ProcStep.addOptions]
  | cons segment rest ih =>
      obtain ⟨here, later⟩ := List.forall_mem_cons.mp inside
      rw [statementsFrom_cons, Segment.read_some_eq_options here, ih later,
        ProcStep.addOptions_addOptions]
      rfl

theorem Segment.bounds_of_head?_dropWhile {first : Segment}
    (isFirst : first ∈ (segments.dropWhile (!·.boundsStep)).head?) : first.boundsStep = true := by
  have stops := List.head?_dropWhile_not (!·.boundsStep) segments
  rw [Option.mem_def.mp isFirst] at stops
  simpa using stops

/-- The step that a segment opens stands in front of the statement of the next segment that bounds
    steps. -/
theorem statementsFrom_of_procedure? {front back : List Segment} {segment : Segment}
    {procedure : Mention} (nonempty : segment.body ≠ [])
    (named : segment.procedure? = some procedure) :
    statementsFrom none (front ++ segment :: back) =
      (statementsFrom none front ++
        segment.statement false :: (back.takeWhile (!·.boundsStep)).map (fun _ => .other)) ++
      .procStep (StepSpan.step ⟨procedure, segment :: back.takeWhile (!·.boundsStep)⟩) ::
        statementsFrom none (back.dropWhile (!·.boundsStep)) := by
  have bounds : segment.boundsStep = true := by
    apply Segment.boundsStep_of_opensStep
    rw [← Segment.isSome_procedure?, named]
    rfl
  have inside : ∀ other ∈ back.takeWhile (!·.boundsStep), other.boundsStep = false := by
    intro other member
    simpa using List.mem_takeWhile_imp member
  -- both cuts are in front of a segment that bounds steps, so no step crosses them
  have parts : front ++ segment :: back =
      front ++ (segment :: back.takeWhile (!·.boundsStep) ++ back.dropWhile (!·.boundsStep)) := by
    rw [List.cons_append, List.takeWhile_append_dropWhile]
  rw [parts, statementsFrom_append (by simpa using bounds),
    statementsFrom_append fun _ => Segment.bounds_of_head?_dropWhile, statementsFrom_cons,
    Segment.statements_read nonempty, Segment.openStep_read, if_pos bounds, if_pos bounds, named,
    Option.map_some, statementsFrom_inside inside, ProcStep.addOptions_addOptions]
  simp [StepSpan.step]

end Runs

/-- How statements stand to the segments that they are read from. -/
structure Interleaved (segments : List Segment) (statements : List Statement) : Prop where
  /-- Besides steps there are as many statements as segments. -/
  length : (besidesSteps statements).length = segments.length
  /-- They stand in the order of the segments that give them. -/
  own : ∀ front segment back, segments = front ++ segment :: back →
    (besidesSteps statements)[front.length]? = some (segment.statement (stepOpen front))
  /-- Only segments at which no step is open read. -/
  reads : ∀ front segment back, segments = front ++ segment :: back →
    ∀ statement ∈ (besidesSteps statements)[front.length]?, statement.reads = true →
      stepOpen front = false
  /-- The steps are those of the procedures that segments name, in their order. -/
  procedures : (stepsOf statements).map ProcStep.procedure =
    segments.filterMap Segment.procedure?
  /-- The step of a segment has the steps of the segments in front of this one in front of it. It
      stands behind the statements of the segments up to the next one that bounds steps and in front
      of the statement of that one, or at the end. -/
  placed : ∀ front segment back, segments = front ++ segment :: back →
    ∀ procedure ∈ segment.procedure?, ∃ step before after,
      statements = before ++ .procStep step :: after ∧ step.procedure = procedure ∧
      (stepsOf before).length = front.countP Segment.opensStep ∧
      (besidesSteps before).length =
        front.length + 1 + (back.takeWhile (!·.boundsStep)).length ∧
      after.head? = (back.dropWhile (!·.boundsStep)).head?.map (Segment.statement false)

theorem StepSpan.procedures_all (segments : List Segment) :
    (all segments).map StepSpan.procedure = segments.filterMap Segment.procedure? := by
  induction segments with
  | nil =>
      rfl
  | cons segment rest ih =>
      cases named : segment.procedure? with
      | none =>
          simp [all, named, ih]
      | some procedure =>
          simp [all, named, ih]

theorem procedures_statementsFrom {segments : List Segment}
    (nonempty : ∀ segment ∈ segments, segment.body ≠ []) :
    (stepsOf (statementsFrom none segments)).map ProcStep.procedure =
      segments.filterMap Segment.procedure? := by
  rw [stepsOf_statementsFrom nonempty, Option.map_none, Option.toList_none, List.nil_append,
    List.map_map, ← StepSpan.procedures_all]
  rfl

theorem length_stepsOf_statementsFrom {segments : List Segment}
    (nonempty : ∀ segment ∈ segments, segment.body ≠ []) :
    (stepsOf (statementsFrom none segments)).length = segments.countP Segment.opensStep := by
  have procedures := congrArg List.length (procedures_statementsFrom nonempty)
  rw [List.length_map, List.length_filterMap_eq_countP] at procedures
  rw [procedures]
  congr 1
  funext segment
  exact Segment.isSome_procedure? segment

theorem Parsed.interleaved_ofSegments {segments : List Segment}
    (nonempty : ∀ segment ∈ segments, segment.body ≠ []) :
    Interleaved segments (ofSegments segments).statements where
  length := length_besidesSteps nonempty none
  own := by
    rintro front segment back rfl
    exact getElem?_besidesSteps nonempty none
  reads := by
    rintro front segment back rfl statement isOwn reads
    have own : _ = some (segment.statement (stepOpen front)) := getElem?_besidesSteps nonempty none
    have same : segment.statement (stepOpen front) = statement :=
      Option.some.inj (own.symm.trans isOwn)
    cases isOpen : stepOpen front with
    | false =>
        rfl
    | true =>
        have here : segment.body ≠ [] := nonempty segment (by simp)
        rw [← same, isOpen, Segment.reads_statement_true here] at reads
        exact absurd reads Bool.false_ne_true
  procedures := procedures_statementsFrom nonempty
  placed := by
    rintro front segment back rfl procedure named
    have inFront : ∀ other ∈ front, other.body ≠ [] :=
      fun other member => nonempty other (List.mem_append_left _ member)
    have behind : ∀ other ∈ back.dropWhile (!·.boundsStep), other.body ≠ [] :=
      fun other member => nonempty other (List.mem_append_right _
        (List.mem_cons_of_mem _ ((List.dropWhile_sublist _).mem member)))
    have here : segment.body ≠ [] := nonempty segment (by simp)
    have noSteps : ∀ statement ∈ segment.statement false ::
        (back.takeWhile (!·.boundsStep)).map (fun _ => Statement.other),
        statement.procStep? = none := by
      refine List.forall_mem_cons.mpr ⟨Segment.procStep?_statement here false, ?_⟩
      exact List.forall_mem_map.mpr fun _ _ => rfl
    refine ⟨_, _, _, statementsFrom_of_procedure? here named, rfl, ?_, ?_,
      head?_statementsFrom behind⟩
    · rw [stepsOf_append, stepsOf_eq_nil noSteps, List.append_nil,
        length_stepsOf_statementsFrom inFront]
    · rw [besidesSteps_append, besidesSteps_eq_self noSteps, List.length_append,
        length_besidesSteps inFront, List.length_cons, List.length_map]
      omega

/-- The segments of tokens are the stretches between semicolons up to the end of the text, and the
    statements stand to them as they should. -/
theorem Parsed.interleaved_ofTokens (tokens : List Token) :
    (Segment.ofTokens tokens).map Segment.body =
        ((tokens.takeWhile (!·.isEnd)).splitOnP (·.isMark ';')).filter (!·.isEmpty) ∧
      Interleaved (Segment.ofTokens tokens) (ofTokens tokens).statements := by
  rw [ofTokens_eq_ofSegments]
  exact ⟨Segment.bodies_ofTokens tokens,
    interleaved_ofSegments fun _ => Segment.body_ne_nil_of_mem_ofTokens⟩

end DatasetLineage
