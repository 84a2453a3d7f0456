/-
Module: DatasetLineage.Proofs.StepBoundaries
Purpose: Where a token sequence may be cut so that both parts are read as they are read alone. A
  cut behind a semicolon keeps every segment whole. The open procedure step is all that crosses
  it, and whether one is open shows in the last segment that opens with DATA, PROC, RUN or QUIT.
  If such a segment stands behind the cut, it completes the step just as the end of the text does.
Main exports: Segment.boundsStep, Segment.opensStep, stepOpen, Segment.ofTokens_append,
  Segment.ofTokens_body, Reading.openStep_isSome, Parsed.ofTokens_append_of_apart
-/
import DatasetLineage.Proofs.CursorSegments
import Mathlib.Data.List.Basic
import Mathlib.Data.List.Induction
import Mathlib.Data.List.TakeWhile

namespace DatasetLineage

/-! ### Segments of a longer text -/

section Cuts

/-- Behind a semicolon no segment has been begun. -/
theorem Cut.exists_segments {tokens : List Token}
    (ends : ∀ last ∈ tokens.getLast?, last.isMark ';' = true) :
    ∃ segments, tokens.foldl Cut.add ⟨[], []⟩ = ⟨segments, []⟩ := by
  rcases List.eq_nil_or_concat' tokens with rfl | ⟨front, last, rfl⟩
  · exact ⟨[], rfl⟩
  · have separates : last.isMark ';' = true := ends last (by simp)
    rw [List.foldl_append, List.foldl_cons, List.foldl_nil, Cut.add, if_pos separates]
    exact ⟨_, rfl⟩

/-- Tokens up to a semicolon that separates statements are gathered in one segment. -/
theorem Cut.foldl_add_inner {tokens : List Token}
    (inner : ∀ token ∈ tokens, token.isMark ';' = false)
    (segments : List Segment) (begun : List Token) :
    tokens.foldl Cut.add ⟨segments, begun⟩ = ⟨segments, tokens.reverse ++ begun⟩ := by
  induction tokens generalizing begun with
  | nil =>
      rfl
  | cons token rest ih =>
      rw [List.forall_mem_cons] at inner
      have kept : Cut.add ⟨segments, begun⟩ token = ⟨segments, token :: begun⟩ := by
        rw [Cut.add, inner.1]
        rfl
      rw [List.foldl_cons, kept, ih inner.2, List.reverse_cons, List.append_assoc,
        List.singleton_append]

theorem endToken_append {front back : List Token} (noEnd : ∀ token ∈ front, token.isEnd = false)
    (nonempty : back ≠ []) : endToken (front ++ back) = endToken back := by
  have none : front.find? Token.isEnd = none := by
    rw [List.find?_eq_none]
    intro token given
    rw [noEnd token given]
    exact Bool.false_ne_true
  rw [endToken, endToken, List.find?_append, none, Option.none_or,
    List.getLast?_append_of_ne_nil _ nonempty]

/-- Tokens that end with a semicolon keep their segments whatever follows. -/
theorem Segment.ofTokens_append {front : List Token} (back : List Token)
    (noEnd : ∀ token ∈ front, token.isEnd = false)
    (ends : ∀ last ∈ front.getLast?, last.isMark ';' = true) :
    Segment.ofTokens (front ++ back) = Segment.ofTokens front ++ Segment.ofTokens back := by
  have whole : ∀ token ∈ front, (!token.isEnd) = true := by
    intro token given
    rw [noEnd token given]
    rfl
  have before : (front.takeWhile fun token => !token.isEnd) = front :=
    List.takeWhile_eq_self_iff.mpr whole
  obtain ⟨segments, cut⟩ := Cut.exists_segments ends
  by_cases nonempty : back = []
  · subst nonempty
    rw [List.append_nil]
    exact (List.append_nil _).symm
  · unfold Segment.ofTokens
    rw [List.takeWhile_append_of_pos whole, List.foldl_append, before, cut, Cut.foldl_add,
      endToken_append noEnd nonempty]
    simp

/-- Tokens of which the last one is a semicolon are one segment. -/
theorem Segment.ofTokens_body {body : List Token} {stop : Token}
    (inner : ∀ token ∈ body, token.isMark ';' = false ∧ token.isEnd = false)
    (isStop : stop.kind = .mark ';') (nonempty : body ≠ []) :
    Segment.ofTokens (body ++ [stop]) = [⟨body, stop⟩] := by
  have noEnd : stop.isEnd = false := by
    rw [Token.isEnd, isStop]
    rfl
  have whole : ((body ++ [stop]).takeWhile fun token => !token.isEnd) = body ++ [stop] := by
    apply List.takeWhile_eq_self_iff.mpr
    rw [List.forall_mem_append, List.forall_mem_singleton]
    exact ⟨fun token member => by rw [(inner token member).2]; rfl, by rw [noEnd]; rfl⟩
  rw [Segment.ofTokens, whole, List.foldl_append,
    Cut.foldl_add_inner fun token member => (inner token member).1]
  simp [Cut.add, Token.isMark, isStop, nonempty]

end Cuts

/-- Whether the segment opens or closes steps: it begins with DATA, PROC, RUN or QUIT. -/
def Segment.boundsStep (segment : Segment) : Bool :=
  match segment.body.head?.bind Token.keyword? with
  | some .data | some .proc | some .run | some .quit => true
  | _ => false

/-- Whether the segment opens a procedure step: it begins with PROC and an identifier. -/
def Segment.opensStep (segment : Segment) : Bool :=
  match segment.body with
  | first :: name :: _ => first.keyword? == some .proc && name.name?.isSome
  | _ => false

/-- Whether a procedure step is open behind segments: the last of them that opens or closes steps
    opens one. -/
def stepOpen (segments : List Segment) : Bool :=
  ((segments.filter Segment.boundsStep).getLast?.map Segment.opensStep).getD false

/-! ### Open steps at a boundary -/

section Steps

variable {segment : Segment} {step : ProcStep}

theorem Segment.isSome_openStep_readFresh (segment : Segment) :
    segment.readFresh.openStep.isSome = (segment.boundsStep && segment.opensStep) := by
  unfold readFresh boundsStep opensStep
  cases segment.body with
  | nil =>
      rfl
  | cons first operands =>
      cases operands with
      | nil =>
          cases found : first.keyword? with
          | none =>
              simp [found]
          | some keyword =>
              cases keyword <;> simp [found, Keyword.readsDatasets]
      | cons name options =>
          cases found : first.keyword? with
          | none =>
              simp [found]
          | some keyword =>
              cases keyword <;> cases named : name.name? <;>
                simp [found, named, Keyword.readsDatasets]

theorem Segment.readFresh_of_readsDatasets {keyword : Keyword} {first : Token}
    (isKeyword : first.keyword? = some keyword) (reads : keyword.readsDatasets = true)
    (operands : List Token) (stop : Token) :
    Segment.readFresh ⟨first :: operands, stop⟩ =
      ⟨[(readSourceStatement first operands).1], (readSourceStatement first operands).2,
        none⟩ := by
  cases keyword with
  | set | merge | update | modify =>
      simp [readFresh, isKeyword, Keyword.readsDatasets]
  | _ =>
      cases reads

/-- A segment that bounds steps completes the open one and is read as if there were none. -/
theorem Segment.read_some_of_boundsStep (bounds : segment.boundsStep = true) (step : ProcStep) :
    segment.read (some step) =
      { segment.readFresh with statements := .procStep step :: segment.readFresh.statements } := by
  unfold boundsStep at bounds
  cases body : segment.body with
  | nil =>
      rw [body] at bounds
      exact absurd bounds Bool.false_ne_true
  | cons first operands =>
      cases found : first.keyword? with
      | none =>
          simp [body, found] at bounds
      | some keyword =>
          cases keyword <;>
            simp_all [read, readFresh, Keyword.readsDatasets, Keyword.opensStep,
              Keyword.endsStep]

/-- Any other segment only adds options to the open step. -/
theorem Segment.read_some_of_not_boundsStep (bounds : segment.boundsStep = false)
    (step : ProcStep) :
    segment.read (some step) =
      ⟨[.other], (optionValues segment.stop segment.body).diagnostics,
        some (step.addOptions (optionValues segment.stop segment.body).values)⟩ := by
  unfold boundsStep at bounds
  unfold read
  cases found : segment.body.head?.bind Token.keyword? with
  | none =>
      rfl
  | some keyword =>
      cases keyword <;> simp_all [Keyword.opensStep, Keyword.endsStep]

/-- Whether a step is open behind a segment is told by the segment, if it bounds steps. -/
theorem Segment.isSome_openStep_read (segment : Segment) (openStep : Option ProcStep) :
    (segment.read openStep).openStep.isSome =
      if segment.boundsStep then segment.opensStep else openStep.isSome := by
  cases openStep with
  | none =>
      rw [read, isSome_openStep_readFresh]
      cases segment.boundsStep <;> rfl
  | some step =>
      cases bounds : segment.boundsStep with
      | false =>
          rw [read_some_of_not_boundsStep bounds]
          rfl
      | true =>
          rw [read_some_of_boundsStep bounds, isSome_openStep_readFresh, bounds]
          rfl

end Steps

/-! ### Readings of both parts -/

section Readings

instance : Append Parsed where
  append front back :=
    ⟨front.statements ++ back.statements, front.diagnostics ++ back.diagnostics⟩

theorem Parsed.append_def (front back : Parsed) :
    front ++ back =
      ⟨front.statements ++ back.statements, front.diagnostics ++ back.diagnostics⟩ := rfl

/-- A reading of segments behind which nothing is reported yet. -/
abbrev Reading.start (openStep : Option ProcStep) : Reading := ⟨[], [], openStep⟩

theorem Parsed.ofSegments_eq_finished (segments : List Segment) :
    Parsed.ofSegments segments = (segments.foldl Reading.add (.start none)).finished := rfl

/-- What was read before stays in front of what further segments contribute. -/
theorem Reading.finished_foldl_add (statements : List Statement) (diagnostics : List Diagnostic)
    (openStep : Option ProcStep) (segments : List Segment) :
    (segments.foldl Reading.add ⟨statements, diagnostics, openStep⟩).finished =
      ⟨statements.reverse, diagnostics.reverse⟩ ++
        (segments.foldl Reading.add (.start openStep)).finished := by
  induction segments generalizing statements diagnostics openStep with
  | nil =>
      simp [Reading.finished, Parsed.append_def]
  | cons segment rest ih =>
      rw [List.foldl_cons, List.foldl_cons, Reading.add_eq, Reading.add_eq, ih,
        ih ((segment.read openStep).statements.reverse ++ [])]
      simp [Parsed.append_def]

/-- Segments that begin with one that bounds steps complete the open step and are read as if there
    were none. So do no segments at all. -/
theorem Reading.finished_start_some {segments : List Segment}
    (bounds : ∀ first ∈ segments.head?, first.boundsStep = true) (step : ProcStep) :
    (segments.foldl Reading.add (.start (some step))).finished =
      ⟨[.procStep step], []⟩ ++ (segments.foldl Reading.add (.start none)).finished := by
  cases segments with
  | nil =>
      rfl
  | cons first rest =>
      have read := Segment.read_some_of_boundsStep (bounds first rfl) step
      have fresh : first.read none = first.readFresh := rfl
      rw [List.foldl_cons, List.foldl_cons, Reading.add_eq, Reading.add_eq, read, fresh,
        finished_foldl_add, finished_foldl_add (_ ++ [])]
      simp [Parsed.append_def]

/-- A step is open behind segments if the last that bounds steps opens one, or none of them bounds
    steps and one was open before. -/
theorem Reading.openStep_isSome (segments : List Segment) (reading : Reading) :
    (segments.foldl Reading.add reading).openStep.isSome =
      ((segments.filter Segment.boundsStep).getLast?.map Segment.opensStep).getD
        reading.openStep.isSome := by
  induction segments using List.reverseRec with
  | nil =>
      rfl
  | append_singleton front last ih =>
      rw [List.foldl_append, List.foldl_cons, List.foldl_nil, List.filter_append]
      have step := Segment.isSome_openStep_read last (front.foldl Reading.add reading).openStep
      cases bounds : last.boundsStep with
      | true =>
          rw [bounds, if_pos rfl] at step
          simpa [bounds, Reading.add_eq] using step
      | false =>
          rw [bounds, if_neg Bool.false_ne_true, ih] at step
          simpa [bounds, Reading.add_eq] using step

/-- Segments are read as they are read alone if no step is open behind the ones in front, or the
    ones behind begin with one that bounds steps. -/
theorem Parsed.ofSegments_append {front back : List Segment}
    (apart : stepOpen front = false ∨ ∀ first ∈ back.head?, first.boundsStep = true) :
    Parsed.ofSegments (front ++ back) = Parsed.ofSegments front ++ Parsed.ofSegments back := by
  have isOpen := Reading.openStep_isSome front (.start none)
  rw [ofSegments_eq_finished, ofSegments_eq_finished, ofSegments_eq_finished, List.foldl_append]
  generalize front.foldl Reading.add (.start none) = reading at isOpen
  obtain ⟨statements, diagnostics, openStep⟩ := reading
  rw [Reading.finished_foldl_add]
  cases openStep with
  | none =>
      simp [Reading.finished]
  | some step =>
      have closes : ∀ first ∈ back.head?, first.boundsStep = true := by
        rcases apart with closed | bounds
        · exact absurd (isOpen.trans closed) (by simp)
        · exact bounds
      rw [Reading.finished_start_some closes]
      simp [Reading.finished, Parsed.append_def]

/-- Such tokens in front of the end of the text are one statement, if no procedure step is open
    behind it. -/
theorem Parsed.ofTokens_body {body : List Token} {stop : Token}
    (inner : ∀ token ∈ body, token.isMark ';' = false ∧ token.isEnd = false)
    (isStop : stop.kind = .mark ';') (nonempty : body ≠ []) (place : Position)
    {statement : Statement} {diagnostics : List Diagnostic}
    (read : Segment.readFresh ⟨body, stop⟩ = ⟨[statement], diagnostics, none⟩) :
    ofTokens (body ++ [stop] ++ [Token.endAt place]) = ⟨[statement], diagnostics⟩ := by
  have noEnd : ∀ token ∈ body ++ [stop], token.isEnd = false := by
    rw [List.forall_mem_append, List.forall_mem_singleton, Token.isEnd, isStop]
    exact ⟨fun token member => (inner token member).2, rfl⟩
  have closed : ∀ last ∈ (body ++ [stop]).getLast?, last.isMark ';' = true := by
    simp [Token.isMark, isStop]
  have noMore : Segment.ofTokens [Token.endAt place] = [] := rfl
  rw [ofTokens_eq_ofSegments, Segment.ofTokens_append _ noEnd closed,
    Segment.ofTokens_body inner isStop nonempty, noMore]
  simp [ofSegments, Reading.add_eq, Reading.finished, Segment.read, read]

/-- Tokens that end with a semicolon are read as they are read alone, and so are the tokens behind
    them, unless a procedure step is open between the two that the tokens behind do not complete
    at once. -/
theorem Parsed.ofTokens_append_of_apart (front back : List Token)
    (noEnd : ∀ token ∈ front, token.isEnd = false)
    (ends : ∀ last ∈ front.getLast?, last.isMark ';' = true)
    (apart : stepOpen (Segment.ofTokens front) = false ∨
      ∀ first ∈ (Segment.ofTokens back).head?, first.boundsStep = true) :
    Parsed.ofTokens (front ++ back) =
      ⟨(Parsed.ofTokens front).statements ++ (Parsed.ofTokens back).statements,
        (Parsed.ofTokens front).diagnostics ++ (Parsed.ofTokens back).diagnostics⟩ := by
  simp only [ofTokens_eq_ofSegments]
  rw [Segment.ofTokens_append back noEnd ends, ofSegments_append apart]
  rfl

/-- An option without its value leaves the step open, and RUN completes it. -/
theorem Parsed.ofTokens_append_missing_value :
    let column := Position.mk 1
    let front : List Token :=
      [⟨.keyword .proc, "proc", column 1⟩, ⟨.identifier "sort", "sort", column 6⟩,
        ⟨.identifier "out", "out", column 11⟩, ⟨.mark '=', "=", column 14⟩,
        ⟨.mark ';', ";", column 15⟩]
    let back : List Token := [⟨.keyword .run, "run", column 17⟩, ⟨.mark ';', ";", column 20⟩]
    Parsed.ofTokens (front ++ back) =
      ⟨(Parsed.ofTokens front).statements ++ (Parsed.ofTokens back).statements,
        (Parsed.ofTokens front).diagnostics ++ (Parsed.ofTokens back).diagnostics⟩ :=
  Parsed.ofTokens_append_of_apart _ _ (by decide) (by decide) (by decide)

end Readings

end DatasetLineage
