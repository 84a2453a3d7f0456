/-
Module: DatasetLineage.Proofs.ProcedureOptions
Purpose: Which datasets of a procedure step stand in parentheses. A step takes the datasets of all
  options of its segments, whether or not they stand in a group in parentheses, and only passes
  over an option whose name it has taken for the value of another one. So its datasets are those
  of the options outside parentheses if every option is one of these and none is passed over, and
  in no other case as long as the tokens can be told apart by their places, as those of a text can.
Main exports: optionAt?, OptionUse, optionUses, StepSpan.uses, StepSpan.LeavesOutGroups,
  StepSpan.IsPlain, option_induction, values_optionValues, StepSpan.datasets_step,
  StepSpan.leavesOutGroups_iff_isPlain, Parsed.leavesOutGroups_of_steps
-/
import DatasetLineage.Proofs.ProcedureSteps
import DatasetLineage.Proofs.TokenSpans
import Mathlib.Data.List.Flatten
import Mathlib.Data.List.Nodup

namespace DatasetLineage

/-- The option that tokens begin with and the dataset that it names: the name of an option, an
    equals sign and an identifier. -/
def optionAt? : List Token → Option (DatasetOption × Mention)
  | option :: equals :: value :: _ =>
    if equals.isMark '=' && value.name?.isSome then
      (datasetOption? option).map fun name => (name, value.mention)
    else none
  | _ => none

/-- The number of parentheses that are open behind a token. One that closes none counts for
    nothing. -/
def Token.depthBehind (token : Token) (depth : Nat) : Nat :=
  if token.isMark '(' then depth + 1 else if token.isMark ')' then depth - 1 else depth

/-- An option as it stands in a statement.
    - `depth`: how many parentheses are open at it.
    - `isValue`: whether its name is the value of another option, which is none of this kind. -/
structure OptionUse where
  depth : Nat
  isValue : Bool
  option : DatasetOption
  value : Mention
deriving DecidableEq, Repr

/-- The options that stand at the tokens of a statement. `depth` parentheses are open in front of
    the tokens, and the first `pending` of them belong to an option in front. -/
def optionUses (depth pending : Nat) : List Token → List OptionUse
  | [] => []
  | token :: rest =>
    match optionAt? (token :: rest) with
    | some (option, value) =>
      ⟨depth, pending ≠ 0, option, value⟩ ::
        optionUses (token.depthBehind depth) (if pending = 0 then 2 else pending - 1) rest
    | none => optionUses (token.depthBehind depth) (pending - 1) rest

/-- The datasets that options read. -/
def inputsOf (uses : List OptionUse) : List Mention :=
  (uses.filter (·.option.isInput)).map OptionUse.value

/-- The datasets that options write. -/
def outputsOf (uses : List OptionUse) : List Mention :=
  (uses.filter (!·.option.isInput)).map OptionUse.value

namespace StepSpan

/-- The options in the segments of a step. Parentheses are counted in each segment anew. -/
def uses (span : StepSpan) : List OptionUse :=
  span.segments.flatMap fun segment => optionUses 0 0 segment.optionTokens

/-- The options outside parentheses. -/
def outerUses (span : StepSpan) : List OptionUse := span.uses.filter (·.depth = 0)

/-- Whether the datasets of the step are those of the options outside parentheses. -/
def LeavesOutGroups (span : StepSpan) : Prop :=
  span.step.inputs = inputsOf span.outerUses ∧ span.step.outputs = outputsOf span.outerUses

instance (span : StepSpan) : Decidable span.LeavesOutGroups :=
  inferInstanceAs (Decidable (_ ∧ _))

/-- Whether all options stand outside parentheses and none has a name that is a value. -/
def IsPlain (span : StepSpan) : Prop :=
  ∀ use ∈ span.uses, use.depth = 0 ∧ use.isValue = false

instance (span : StepSpan) : Decidable span.IsPlain :=
  inferInstanceAs (Decidable (∀ use ∈ span.uses, _))

end StepSpan

/-! ### Options of one statement -/

section Options

variable {token equals value : Token} {rest : List Token} {name : DatasetOption}

theorem datasetOption?_of_isMark {c : Char} (isMark : token.isMark c = true) :
    datasetOption? token = none := by
  have kind : token.kind = .mark c := eq_of_beq isMark
  rw [datasetOption?, kind]

theorem name?_of_isMark {c : Char} (isMark : token.isMark c = true) : token.name? = none := by
  have kind : token.kind = .mark c := eq_of_beq isMark
  rw [Token.name?, kind]

/-- What tokens begin with that begin with an option. -/
structure BeginsOption (name : DatasetOption) (token equals value : Token) : Prop where
  named : datasetOption? token = some name
  isEquals : equals.isMark '=' = true
  isName : value.name?.isSome = true

theorem BeginsOption.optionAt? (option : BeginsOption name token equals value) :
    optionAt? (token :: equals :: value :: rest) = some (name, value.mention) := by
  simp [DatasetLineage.optionAt?, option.named, option.isEquals, option.isName]

theorem optionAt?_eq_none_of_isMark {c : Char} (isMark : token.isMark c = true) :
    optionAt? (token :: rest) = none := by
  unfold optionAt?
  split
  · next same =>
      obtain ⟨rfl, _⟩ := List.cons.inj same
      simp [datasetOption?_of_isMark isMark]
  · rfl

/-- Tokens that begin with a token either have no option there or have three tokens of one. -/
theorem optionAt?_cases (token : Token) (rest : List Token) :
    optionAt? (token :: rest) = none ∨
      ∃ name equals value behind, rest = equals :: value :: behind ∧
        BeginsOption name token equals value := by
  unfold optionAt?
  split
  · next option equals value behind same =>
      obtain ⟨rfl, rfl⟩ := List.cons.inj same
      by_cases shape : (equals.isMark '=' && value.name?.isSome) = true
      · cases named : datasetOption? token with
        | none =>
            simp
        | some name =>
            rw [Bool.and_eq_true] at shape
            exact .inr ⟨name, equals, value, behind, rfl, named, shape.1, shape.2⟩
      · exact .inl (if_neg shape)
  · exact .inl rfl

/-- An induction over tokens from option to option. -/
theorem option_induction {motive : List Token → Prop} (nil : motive [])
    (skip : ∀ token rest, optionAt? (token :: rest) = none → motive rest → motive (token :: rest))
    (take : ∀ name token equals value rest, BeginsOption name token equals value → motive rest →
      motive (token :: equals :: value :: rest)) (tokens : List Token) : motive tokens := by
  -- an option takes three tokens at once, so the length is what decreases
  induction size : tokens.length using Nat.strongRecOn generalizing tokens with
  | ind n ih =>
      cases tokens with
      | nil =>
          exact nil
      | cons token rest =>
          rw [List.length_cons] at size
          rcases optionAt?_cases token rest with
            noOption | ⟨name, equals, value, behind, rfl, option⟩
          · exact skip token rest noOption (ih rest.length (by omega) rest rfl)
          · rw [List.length_cons, List.length_cons] at size
            exact take name token equals value behind option
              (ih behind.length (by omega) behind rfl)

theorem optionValues_of_none (stop : Token) (noOption : optionAt? (token :: rest) = none) :
    (optionValues stop (token :: rest)).values = (optionValues stop rest).values := by
  rcases rest with _ | ⟨equals, _ | ⟨value, behind⟩⟩
  · rfl
  · cases named : datasetOption? token with
    | none =>
        simp [optionValues, named]
    | some name =>
        cases isEquals : equals.isMark '=' <;> simp [optionValues, named, isEquals]
  · cases named : datasetOption? token with
    | none =>
        simp [optionValues, named]
    | some name =>
        cases isEquals : equals.isMark '=' with
        | false =>
            simp [optionValues, named, isEquals]
        | true =>
            cases isName : value.name? with
            | none =>
                simp [optionValues, named, isEquals, isName]
            | some text =>
                simp [optionAt?, named, isEquals, isName] at noOption

theorem BeginsOption.optionValues (option : BeginsOption name token equals value) (stop : Token) :
    (optionValues stop (token :: equals :: value :: rest)).values =
      (name, value.mention) :: (DatasetLineage.optionValues stop rest).values := by
  obtain ⟨text, isText⟩ := Option.isSome_iff_exists.mp option.isName
  simp [DatasetLineage.optionValues, option.named, option.isEquals, isText]

theorem optionUses_of_none (noOption : optionAt? (token :: rest) = none) (depth pending : Nat) :
    optionUses depth pending (token :: rest) =
      optionUses (token.depthBehind depth) (pending - 1) rest := by
  rw [optionUses, noOption]

theorem depthBehind_of_isMark_ne (notMark : ∀ c, token.isMark c ≠ true) (depth : Nat) :
    token.depthBehind depth = depth := by
  rw [Token.depthBehind, if_neg (notMark '('), if_neg (notMark ')')]

/-- No token of an option is a parenthesis. -/
theorem BeginsOption.depthBehind (option : BeginsOption name token equals value) (depth : Nat) :
    token.depthBehind depth = depth ∧ equals.depthBehind depth = depth ∧
      value.depthBehind depth = depth := by
  have equalsKind : equals.kind = .mark '=' := eq_of_beq option.isEquals
  refine ⟨depthBehind_of_isMark_ne ?_ depth, ?_, depthBehind_of_isMark_ne ?_ depth⟩
  · intro c isMark
    exact nomatch (datasetOption?_of_isMark isMark).symm.trans option.named
  · simp [Token.depthBehind, Token.isMark, equalsKind]
  · intro c isMark
    have isName := option.isName
    rw [name?_of_isMark isMark] at isName
    exact Bool.false_ne_true isName

/-- Behind the name of an option there may be one whose name is the value of this option. -/
theorem BeginsOption.optionUses (option : BeginsOption name token equals value) (depth : Nat) :
    optionUses depth 0 (token :: equals :: value :: rest) =
      ⟨depth, false, name, value.mention⟩ ::
        ((DatasetLineage.optionAt? (value :: rest)).toList.map fun found =>
          (⟨depth, true, found.1, found.2⟩ : OptionUse)) ++
        DatasetLineage.optionUses depth 0 rest := by
  obtain ⟨atName, atEquals, atValue⟩ := option.depthBehind depth
  have noOption : DatasetLineage.optionAt? (equals :: value :: rest) = none :=
    optionAt?_eq_none_of_isMark option.isEquals
  rw [DatasetLineage.optionUses, option.optionAt?]
  dsimp only
  rw [atName, if_pos rfl, optionUses_of_none noOption, atEquals, DatasetLineage.optionUses,
    atValue]
  cases DatasetLineage.optionAt? (value :: rest) with
  | none =>
      rfl
  | some found =>
      rfl

/-- The options that a statement is searched for are those that stand in it, except for those whose
    name is a value. -/
theorem values_optionValues (stop : Token) (depth : Nat) (tokens : List Token) :
    (optionValues stop tokens).values =
      ((optionUses depth 0 tokens).filter (!·.isValue)).map fun use => (use.option, use.value) := by
  induction tokens using option_induction generalizing depth with
  | nil =>
      rfl
  | skip token rest noOption ih =>
      rw [optionValues_of_none stop noOption, optionUses_of_none noOption, ih]
  | take name token equals value rest option ih =>
      rw [option.optionValues, option.optionUses, ih depth]
      cases optionAt? (value :: rest) <;> rfl

/-- In front of an option whose name is a value stands one of the other kind, inside as many
    parentheses. -/
theorem exists_use_of_isValue {depth : Nat} {tokens : List Token} {use : OptionUse}
    (member : use ∈ optionUses depth 0 tokens) (isValue : use.isValue = true) :
    ∃ other ∈ optionUses depth 0 tokens, other.isValue = false ∧ other.depth = use.depth := by
  induction tokens using option_induction generalizing depth with
  | nil =>
      exact absurd member List.not_mem_nil
  | skip token rest noOption ih =>
      rw [optionUses_of_none noOption] at member ⊢
      exact ih member
  | take name token equals value rest option ih =>
      rw [option.optionUses] at member ⊢
      rcases List.mem_append.mp member with here | later
      · refine ⟨⟨depth, false, name, value.mention⟩, by simp, rfl, ?_⟩
        rcases List.mem_cons.mp here with rfl | chained
        · rfl
        · obtain ⟨found, _, rfl⟩ := List.mem_map.mp chained
          rfl
      · obtain ⟨other, inRest, unread, same⟩ := ih later
        exact ⟨other, List.mem_append_right _ inRest, unread, same⟩

@[simp]
theorem Token.position_mention (token : Token) : token.mention.position = token.position := by
  unfold mention
  cases token.kind <;> rfl

/-- The values of options are at places of tokens, in order. -/
theorem positions_optionUses_sublist (depth pending : Nat) (tokens : List Token) :
    ((optionUses depth pending tokens).map (·.value.position)).Sublist
      ((tokens.drop 2).map Token.position) := by
  induction tokens generalizing depth pending with
  | nil =>
      exact List.Sublist.refl []
  | cons token rest ih =>
      rcases optionAt?_cases token rest with noOption | ⟨name, equals, value, behind, rfl, option⟩
      · rw [optionUses_of_none noOption]
        refine (ih _ _).trans (List.Sublist.map _ ?_)
        rw [List.drop_succ_cons]
        exact List.drop_sublist_drop_left rest (by omega)
      · rw [optionUses, option.optionAt?]
        simpa using ih _ _

end Options

/-! ### Options of a step -/

section Spans

theorem StepSpan.segments_sublist {segments : List Segment} {span : StepSpan}
    (member : span ∈ all segments) : span.segments.Sublist segments := by
  induction segments with
  | nil =>
      exact absurd member List.not_mem_nil
  | cons segment rest ih =>
      rw [all] at member
      cases named : segment.procedure? with
      | none =>
          rw [named] at member
          exact (ih member).cons segment
      | some procedure =>
          rw [named] at member
          rcases List.mem_cons.mp member with rfl | later
          · exact (List.takeWhile_sublist _).cons_cons segment
          · exact (ih later).cons segment

theorem flatten_splitOnP_sublist (p : Token → Bool) (tokens : List Token) :
    ((tokens.splitOnP p).flatten).Sublist tokens := by
  induction tokens with
  | nil =>
      simp
  | cons token rest ih =>
      rw [List.splitOnP_cons_eq_if_modifyHead]
      by_cases separates : p token = true
      · rw [if_pos separates]
        exact ih.cons token
      · rw [if_neg separates]
        cases parts : rest.splitOnP p with
        | nil =>
            exact absurd parts (List.splitOnP_ne_nil _ _)
        | cons first others =>
            rw [parts] at ih
            exact ih.cons_cons token

theorem Segment.flatMap_body_sublist_takeWhile (tokens : List Token) :
    ((ofTokens tokens).flatMap body).Sublist (tokens.takeWhile (!·.isEnd)) := by
  rw [List.flatMap_def, bodies_ofTokens, List.flatten_filter_not_isEmpty]
  exact flatten_splitOnP_sublist _ _

theorem Segment.flatMap_body_sublist (tokens : List Token) :
    ((ofTokens tokens).flatMap body).Sublist tokens :=
  (flatMap_body_sublist_takeWhile tokens).trans (List.takeWhile_sublist _)

theorem Segment.optionTokens_sublist (segment : Segment) :
    segment.optionTokens.Sublist segment.body := by
  unfold optionTokens
  split
  · exact List.drop_sublist 2 segment.body
  · exact List.Sublist.refl _

/-- The values of the options of a step are at places of tokens, in order. -/
theorem StepSpan.positions_uses_sublist {tokens : List Token} {span : StepSpan}
    (member : span ∈ all (Segment.ofTokens tokens)) :
    (span.uses.map (·.value.position)).Sublist (tokens.map Token.position) := by
  have bodies : (span.segments.flatMap Segment.body).Sublist tokens :=
    ((segments_sublist member).flatMap _).trans (Segment.flatMap_body_sublist tokens)
  refine List.Sublist.trans ?_ (bodies.map Token.position)
  rw [uses, List.map_flatMap, List.map_flatMap]
  refine List.Sublist.flatMap_right _ fun segment _ => ?_
  have values := positions_optionUses_sublist 0 0 segment.optionTokens
  have part := (List.drop_sublist 2 _).trans segment.optionTokens_sublist
  exact values.trans (part.map Token.position)

theorem StepSpan.nodup_values_uses {tokens : List Token} {span : StepSpan}
    (distinct : (tokens.map Token.position).Nodup)
    (member : span ∈ all (Segment.ofTokens tokens)) :
    (span.uses.map OptionUse.value).Nodup := by
  have positions := (positions_uses_sublist member).nodup distinct
  apply List.Nodup.of_map Mention.position
  rw [List.map_map]
  exact positions

/-- The datasets of a step are those of its options, except for the ones whose name is a value. -/
theorem StepSpan.datasets_step (span : StepSpan) :
    span.step.inputs = inputsOf (span.uses.filter (!·.isValue)) ∧
      span.step.outputs = outputsOf (span.uses.filter (!·.isValue)) := by
  have options : span.segments.flatMap Segment.options =
      (span.uses.filter (!·.isValue)).map fun use => (use.option, use.value) := by
    rw [uses, List.filter_flatMap, List.map_flatMap]
    congr 1
    funext segment
    exact values_optionValues segment.stop 0 segment.optionTokens
  rw [step, options]
  constructor
  · simp [ProcStep.addOptions, inputsOf, List.filter_map, Function.comp_def]
  · simp [ProcStep.addOptions, outputsOf, List.filter_map, Function.comp_def]

variable {given chosen others : List OptionUse} {use : OptionUse}

/-- Options with the same datasets are the same options if no two of them have one value. -/
theorem mem_of_datasets_eq (distinct : (given.map OptionUse.value).Nodup) (part : chosen ⊆ given)
    (otherPart : others ⊆ given) (inputs : inputsOf chosen = inputsOf others)
    (outputs : outputsOf chosen = outputsOf others) (member : use ∈ chosen) : use ∈ others := by
  obtain ⟨other, inOthers, same⟩ : ∃ other ∈ others, other.value = use.value := by
    cases isInput : use.option.isInput with
    | true =>
        have value : use.value ∈ inputsOf others :=
          inputs ▸ List.mem_map_of_mem (List.mem_filter.mpr ⟨member, isInput⟩)
        obtain ⟨other, named, same⟩ := List.mem_map.mp value
        exact ⟨other, (List.mem_filter.mp named).1, same⟩
    | false =>
        have value : use.value ∈ outputsOf others :=
          outputs ▸ List.mem_map_of_mem (List.mem_filter.mpr ⟨member, by simp [isInput]⟩)
        obtain ⟨other, named, same⟩ := List.mem_map.mp value
        exact ⟨other, (List.mem_filter.mp named).1, same⟩
  have equal := List.inj_on_of_nodup_map distinct (otherPart inOthers) (part member) same
  exact equal ▸ inOthers

/-- A step without options in parentheses and without options whose name is a value has the
    datasets that it should have. -/
theorem StepSpan.IsPlain.leavesOutGroups {span : StepSpan} (plain : span.IsPlain) :
    span.LeavesOutGroups := by
  have outer : span.outerUses = span.uses :=
    List.filter_eq_self.mpr fun use member => decide_eq_true (plain use member).1
  have read : span.uses.filter (!·.isValue) = span.uses :=
    List.filter_eq_self.mpr fun use member => by rw [(plain use member).2]; rfl
  have datasets := span.datasets_step
  rw [read] at datasets
  rw [LeavesOutGroups, outer]
  exact datasets

/-- If the values of the options of a step can be told apart, no other step has them. -/
theorem StepSpan.LeavesOutGroups.isPlain {span : StepSpan}
    (distinct : (span.uses.map OptionUse.value).Nodup) (leavesOut : span.LeavesOutGroups) :
    span.IsPlain := by
  obtain ⟨inputs, outputs⟩ := span.datasets_step
  have inputs := inputs.symm.trans leavesOut.1
  have outputs := outputs.symm.trans leavesOut.2
  have readPart : span.uses.filter (!·.isValue) ⊆ span.uses := List.filter_subset_self _
  have outerPart : span.outerUses ⊆ span.uses := List.filter_subset_self _
  have outer_of_read : ∀ use ∈ span.uses, use.isValue = false → use.depth = 0 := by
    intro use member unread
    have read : use ∈ span.uses.filter (!·.isValue) :=
      List.mem_filter.mpr ⟨member, by rw [unread]; rfl⟩
    have outer := mem_of_datasets_eq distinct readPart outerPart inputs outputs read
    exact of_decide_eq_true (List.mem_filter.mp outer).2
  intro use member
  have depth : use.depth = 0 := by
    cases isValue : use.isValue with
    | false =>
        exact outer_of_read use member isValue
    | true =>
        -- the option that it is the value of is as deep, and has been read
        obtain ⟨segment, inSpan, here⟩ := List.mem_flatMap.mp member
        obtain ⟨other, there, read, same⟩ := exists_use_of_isValue here isValue
        exact same ▸ outer_of_read other (List.mem_flatMap.mpr ⟨segment, inSpan, there⟩) read
  have outer : use ∈ span.outerUses := List.mem_filter.mpr ⟨member, decide_eq_true depth⟩
  have read := mem_of_datasets_eq distinct outerPart readPart inputs.symm outputs.symm outer
  exact ⟨depth, by simpa using (List.mem_filter.mp read).2⟩

/-- A step of a text has the datasets outside parentheses if it has no other options, and only
    then. -/
theorem StepSpan.leavesOutGroups_iff_isPlain (text : String) {span : StepSpan}
    (member : span ∈ all (Segment.ofTokens (Scanned.ofText text).tokens)) :
    span.LeavesOutGroups ↔ span.IsPlain :=
  ⟨fun leavesOut =>
      leavesOut.isPlain (nodup_values_uses (Scanned.nodup_positions_ofText text) member),
    fun plain => plain.leavesOutGroups⟩

end Spans

/-- The datasets of a procedure step are those of its options outside parentheses if all its options
    are and none has a name that is a value, and only then if no two tokens are at one place. -/
theorem Parsed.leavesOutGroups_of_steps (tokens : List Token) :
    stepsOf (ofTokens tokens).statements =
        (StepSpan.all (Segment.ofTokens tokens)).map StepSpan.step ∧
      ∀ span ∈ StepSpan.all (Segment.ofTokens tokens),
        (span.IsPlain → span.LeavesOutGroups) ∧
          ((tokens.map Token.position).Nodup → span.LeavesOutGroups → span.IsPlain) := by
  have nonempty : ∀ segment ∈ Segment.ofTokens tokens, segment.body ≠ [] :=
    fun _ => Segment.body_ne_nil_of_mem_ofTokens
  have steps := stepsOf_statementsFrom nonempty none
  rw [ofTokens_eq_ofSegments]
  refine ⟨steps, fun span member => ⟨fun plain => plain.leavesOutGroups, ?_⟩⟩
  intro distinct leavesOut
  exact leavesOut.isPlain (StepSpan.nodup_values_uses distinct member)

/-- A group that renames a variable to `out` in front of the option OUT=. -/
theorem Parsed.not_leavesOutGroups_rename :
    let tokens := (Scanned.ofText "proc sort data=a(rename=(out=x)) out=b; run;").tokens
    ∃ span, StepSpan.all (Segment.ofTokens tokens) = [span] ∧
      stepsOf (ofTokens tokens).statements = [span.step] ∧
      span.step.outputs = [⟨"x", 1, 30⟩, ⟨"b", 1, 38⟩] ∧
      outputsOf span.outerUses = [⟨"b", 1, 38⟩] ∧ ¬ span.LeavesOutGroups := by
  exact ⟨_, rfl, by decide +kernel, by decide +kernel, by decide +kernel, by decide +kernel⟩

end DatasetLineage
