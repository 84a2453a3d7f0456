/-
Module: DatasetLineage.Proofs.ReadGrammar
Purpose: The grammar of a read statement. Its operands are items: names, separators, groups in
  parentheses, and options with or without a value. A statement has no fault if and only if its
  operands split into items with a name among them, and then it reads these names. The one place
  where two ways of reading meet is behind the name of an option: an equals sign begins no item, so
  it can only be there for the value.
Main exports: Balanced, ReadsItems, ReadPlace.roles, ReadPlace.Accepts, ReadPlace.accepts_item_iff,
  ReadByItems, readByItems_readSourceStatement, Parsed.ofTokens_of_readsDatasets,
  Parsed.readByItems_ofTokens
-/
import DatasetLineage.Proofs.FaultPlaces

namespace DatasetLineage

/-- Tokens in which every parenthesis has its counterpart. -/
inductive Balanced : List Token → Prop where
  | nil : Balanced []
  | token {token : Token} {tokens : List Token} (notOpening : token.isMark '(' = false)
      (notClosing : token.isMark ')' = false) (rest : Balanced tokens) :
      Balanced (token :: tokens)
  | group {opening closing : Token} {inner tokens : List Token} (opens : opening.isMark '(' = true)
      (inside : Balanced inner) (closes : closing.isMark ')' = true) (rest : Balanced tokens) :
      Balanced (opening :: inner ++ closing :: tokens)

/-- How the operands of a read statement split into items, with the names among these.
    - `option`, `optionValue`: the value of an option is one token of any kind.
    - `missingValue`: only at the end of the statement the value may be missing. -/
inductive ReadsItems : List Token → List Token → Prop where
  | nil : ReadsItems [] []
  | name {token : Token} {tokens names : List Token} (isSource : token.isSource = true)
      (rest : ReadsItems tokens names) : ReadsItems (token :: tokens) (token :: names)
  | separator {token : Token} {tokens names : List Token} (isSeparator : token.isSeparator = true)
      (rest : ReadsItems tokens names) : ReadsItems (token :: tokens) names
  | group {opening closing : Token} {inner tokens names : List Token}
      (opens : opening.isMark '(' = true) (inside : Balanced inner)
      (closes : closing.isMark ')' = true) (rest : ReadsItems tokens names) :
      ReadsItems (opening :: inner ++ closing :: tokens) names
  | option {token : Token} {tokens names : List Token} (isOption : token.isOption = true)
      (rest : ReadsItems tokens names) : ReadsItems (token :: tokens) names
  | optionValue {option equals value : Token} {tokens names : List Token}
      (isOption : option.isOption = true) (isEquals : equals.isMark '=' = true)
      (rest : ReadsItems tokens names) : ReadsItems (option :: equals :: value :: tokens) names
  | missingValue {option equals : Token} (isOption : option.isOption = true)
      (isEquals : equals.isMark '=' = true) : ReadsItems [option, equals] []

/-- What a read statement is by the items of its operands. -/
structure ReadByItems (keyword : Token) (operands : List Token) (statement : Statement)
    (diagnostics : List Diagnostic) : Prop where
  /-- There is no fault if and only if the operands are items with a name among them. -/
  faultless : diagnostics = [] ↔ ∃ names, ReadsItems operands names ∧ names ≠ []
  /-- The names among the items are the datasets of the statement, in order. -/
  named : ∀ names, ReadsItems operands names → names ≠ [] →
    statement = .readSource keyword.mention (names.map Token.mention)
  /-- Items without a name have one fault, at the keyword. -/
  unnamed : ReadsItems operands [] → statement = .other ∧
    diagnostics = [keyword.fault (.missingSources keyword.spelling)]
  /-- Whether or not operands are items, the statement reads some of them, or none and the keyword
      is at fault. -/
  reads : statement = .other ∧
      keyword.fault (.missingSources keyword.spelling) ∈ diagnostics ∨
    ∃ names, names ≠ [] ∧ names.Sublist operands ∧ (∀ name ∈ names, name.isSource = true) ∧
      statement = .readSource keyword.mention (names.map Token.mention) ∧
      keyword.fault (.missingSources keyword.spelling) ∉ diagnostics

namespace ReadPlace

/-- Whether operands behind a place have no fault, with these tokens for sources. -/
structure Accepts (place : ReadPlace) (operands names : List Token) : Prop where
  noStray : tokensWithRole .stray (place.roles operands) = []
  closed : (place.behind operands).unclosed? = none
  names : tokensWithRole .source (place.roles operands) = names

/-! ### Operands that are accepted -/

section Accepts

variable {place next : ReadPlace} {token opening : Token} {tokens operands names : List Token}

theorem accepts_nil : place.Accepts [] names ↔ place.unclosed? = none ∧ names = [] := by
  constructor
  · intro accepts
    exact ⟨accepts.closed, accepts.names.symm⟩
  · rintro ⟨closed, rfl⟩
    exact ⟨rfl, closed, rfl⟩

/-- The first operand has its role, and those behind it are read from the place behind it. -/
theorem accepts_cons {role : Role} (taken : place.take token = (role, next)) :
    place.Accepts (token :: operands) names ↔
      role ≠ .stray ∧ ∃ rest, names = (if role = .source then token :: rest else rest) ∧
        next.Accepts operands rest := by
  have roles : place.roles (token :: operands) = (token, role) :: next.roles operands := by
    rw [ReadPlace.roles, taken]
  have behind : place.behind (token :: operands) = next.behind operands := by
    rw [ReadPlace.behind, List.foldl_cons, taken]
    rfl
  constructor
  · rintro ⟨noStray, closed, sources⟩
    rw [roles, tokensWithRole_cons] at noStray sources
    rw [behind] at closed
    by_cases stray : role = .stray
    · simp [stray] at noStray
    · rw [if_neg stray] at noStray
      exact ⟨stray, _, sources.symm, noStray, closed, rfl⟩
  · rintro ⟨noStray, rest, rfl, accepts⟩
    refine ⟨?_, behind ▸ accepts.closed, ?_⟩
    · rw [roles, tokensWithRole_cons, if_neg noStray, accepts.noStray]
    · rw [roles, tokensWithRole_cons, accepts.names]

theorem accepts_cons_of_passed (taken : place.take token = (.passed, next)) :
    place.Accepts (token :: operands) names ↔ next.Accepts operands names := by
  simp [accepts_cons taken]

theorem accepts_cons_of_source (taken : place.take token = (.source, next)) :
    place.Accepts (token :: operands) names ↔
      ∃ rest, names = token :: rest ∧ next.Accepts operands rest := by
  simp [accepts_cons taken]

theorem not_accepts_cons_of_stray (taken : place.take token = (.stray, next)) :
    ¬ place.Accepts (token :: operands) names := by
  simp [accepts_cons taken]

/-- Behind the name of an option operands are read as at the start of one, unless they begin with an
    equals sign. -/
theorem Accepts.behindOption (accepts : item.Accepts operands names) :
    optionSeen.Accepts operands names := by
  cases operands with
  | nil =>
      exact accepts_nil.mpr ⟨rfl, (accepts_nil.mp accepts).2⟩
  | cons token rest =>
      cases isEquals : token.isMark '=' with
      | true =>
          exact absurd accepts (not_accepts_cons_of_stray (take_item_of_isEquals isEquals))
      | false =>
          exact (accepts_cons (take_optionSeen_of_other isEquals)).mpr
            ((accepts_cons rfl).mp accepts)

/-- What stands behind the name of an option is its equals sign or is read as at the start of an
    operand. -/
theorem Accepts.of_optionSeen (accepts : optionSeen.Accepts operands names) :
    item.Accepts operands names ∨ ∃ equals behind, operands = equals :: behind ∧
      equals.isMark '=' = true ∧ optionValue.Accepts behind names := by
  cases operands with
  | nil =>
      exact .inl (accepts_nil.mpr ⟨rfl, (accepts_nil.mp accepts).2⟩)
  | cons token rest =>
      cases isEquals : token.isMark '=' with
      | true =>
          rw [accepts_cons_of_passed (take_optionSeen_of_isEquals isEquals)] at accepts
          exact .inr ⟨token, rest, rfl, isEquals, accepts⟩
      | false =>
          exact .inl ((accepts_cons rfl).mpr
            ((accepts_cons (take_optionSeen_of_other isEquals)).mp accepts))

/-- A group goes on behind tokens in which every parenthesis has its counterpart. -/
theorem accepts_balanced_append {inner : List Token} (balanced : Balanced inner) (depth : Nat) :
    (group opening depth).Accepts (inner ++ operands) names ↔
      (group opening depth).Accepts operands names := by
  induction balanced generalizing depth operands with
  | nil =>
      exact Iff.rfl
  | token notOpening notClosing _ ih =>
      rw [List.cons_append,
        accepts_cons_of_passed (take_group_of_other notOpening notClosing depth), ih]
  | group opens _ closes _ ihInside ihRest =>
      rw [List.append_assoc, List.cons_append, List.cons_append,
        accepts_cons_of_passed (take_group_of_opening opens depth), ihInside,
        accepts_cons_of_passed (take_group_of_closing closes depth), ihRest]

/-- A group whose operands have no fault is closed, and every parenthesis in front of the closing
    one has its counterpart. -/
theorem Accepts.exists_closing {depth : Nat}
    (accepts : (group opening depth).Accepts operands names) :
    ∃ inner closing rest, operands = inner ++ closing :: rest ∧ Balanced inner ∧
      closing.isMark ')' = true ∧ ((group opening depth).take closing).2.Accepts rest names := by
  induction size : operands.length using Nat.strongRecOn generalizing operands depth with
  | ind n ih =>
      cases operands with
      | nil =>
          exact absurd accepts.closed (Option.some_ne_none opening)
      | cons token operands =>
          rw [List.length_cons] at size
          cases isOpening : token.isMark '(' with
          | true =>
              rw [accepts_cons_of_passed (take_group_of_opening isOpening depth)] at accepts
              obtain ⟨inside, closing, rest, rfl, balanced, closes, accepts⟩ :=
                ih operands.length (by omega) accepts rfl
              rw [take_group_of_closing closes] at accepts
              rw [List.length_append, List.length_cons] at size
              obtain ⟨inner, closing', rest', rfl, balanced', closes', accepts'⟩ :=
                ih rest.length (by omega) accepts rfl
              exact ⟨token :: inside ++ closing :: inner, closing', rest', by simp,
                .group isOpening balanced closes balanced', closes', accepts'⟩
          | false =>
              cases isClosing : token.isMark ')' with
              | true =>
                  have passed := take_group_passed opening depth token
                  exact ⟨[], token, operands, rfl, .nil, isClosing,
                    (accepts_cons_of_passed passed).mp accepts⟩
              | false =>
                  have passed : (group opening depth).take token = (.passed, group opening depth) :=
                    take_group_of_other isOpening isClosing depth
                  rw [accepts_cons_of_passed passed] at accepts
                  obtain ⟨inner, closing, rest, rfl, balanced, closes, accepts⟩ :=
                    ih operands.length (by omega) accepts rfl
                  exact ⟨token :: inner, closing, rest, rfl, .token isOpening isClosing balanced,
                    closes, accepts⟩

/-- Operands that split into items have no fault, and the names among the items are the sources. -/
theorem accepts_of_readsItems (reads : ReadsItems operands names) :
    item.Accepts operands names := by
  induction reads with
  | nil =>
      exact accepts_nil.mpr ⟨rfl, rfl⟩
  | name isSource _ ih =>
      exact (accepts_cons_of_source (take_item_of_isSource isSource)).mpr ⟨_, rfl, ih⟩
  | separator isSeparator _ ih =>
      exact (accepts_cons_of_passed (take_item_of_isSeparator isSeparator)).mpr ih
  | @group opening closing inner tokens names opens inside closes _ ih =>
      rw [List.cons_append, accepts_cons_of_passed (take_item_of_opening opens),
        accepts_balanced_append inside, accepts_cons_of_passed (take_group_zero_of_closing closes)]
      exact ih
  | option isOption _ ih =>
      exact (accepts_cons_of_passed (take_item_of_isOption isOption)).mpr ih.behindOption
  | @optionValue option equals value tokens names isOption isEquals _ ih =>
      have value : optionValue.take value = (.passed, item) := rfl
      rw [accepts_cons_of_passed (take_item_of_isOption isOption),
        accepts_cons_of_passed (take_optionSeen_of_isEquals isEquals), accepts_cons_of_passed value]
      exact ih
  | missingValue isOption isEquals =>
      rw [accepts_cons_of_passed (take_item_of_isOption isOption),
        accepts_cons_of_passed (take_optionSeen_of_isEquals isEquals)]
      exact accepts_nil.mpr ⟨rfl, rfl⟩

/-- Operands without a fault split into items. -/
theorem Accepts.readsItems (accepts : item.Accepts operands names) : ReadsItems operands names := by
  -- an item may take many tokens at once, so the length is what decreases
  induction size : operands.length using Nat.strongRecOn generalizing operands names with
  | ind n ih =>
      cases operands with
      | nil =>
          obtain ⟨_, rfl⟩ := accepts_nil.mp accepts
          exact .nil
      | cons token operands =>
          rw [List.length_cons] at size
          have below : operands.length < n := by omega
          have taken : item.take token = takeItem token := rfl
          have view := takesItem token
          generalize takeItem token = result at taken view
          cases view with
          | opens isMark =>
              rw [accepts_cons_of_passed taken] at accepts
              obtain ⟨inner, closing, rest, rfl, inside, closes, accepts⟩ := accepts.exists_closing
              rw [take_group_zero_of_closing closes] at accepts
              rw [List.length_append, List.length_cons] at below
              exact .group isMark inside closes (ih rest.length (by omega) accepts rfl)
          | separates isSeparator =>
              rw [accepts_cons_of_passed taken] at accepts
              exact .separator isSeparator (ih operands.length below accepts rfl)
          | option isOption =>
              rw [accepts_cons_of_passed taken] at accepts
              rcases accepts.of_optionSeen with asItem | ⟨equals, behind, rfl, isEquals, value⟩
              · exact .option isOption (ih operands.length below asItem rfl)
              · rw [List.length_cons] at below
                cases behind with
                | nil =>
                    obtain ⟨_, rfl⟩ := accepts_nil.mp value
                    exact .missingValue isOption isEquals
                | cons value' rest =>
                    rw [List.length_cons] at below
                    have passed : optionValue.take value' = (.passed, item) := rfl
                    rw [accepts_cons_of_passed passed] at value
                    exact .optionValue isOption isEquals (ih rest.length (by omega) value rfl)
          | source isSource =>
              obtain ⟨rest, rfl, behind⟩ := (accepts_cons_of_source taken).mp accepts
              exact .name isSource (ih operands.length below behind rfl)
          | stray =>
              exact absurd accepts (not_accepts_cons_of_stray taken)

theorem accepts_item_iff : item.Accepts operands names ↔ ReadsItems operands names :=
  ⟨Accepts.readsItems, accepts_of_readsItems⟩

end Accepts

end ReadPlace

/-! ### Statements -/

section Statements

theorem ReadPlace.isSource_of_take {place : ReadPlace} {token : Token}
    (source : (place.take token).1 = .source) : token.isSource = true := by
  rcases place.take_cases token with asItem | ⟨next, passed, _⟩
  · rw [asItem] at source
    have view := takesItem token
    generalize takeItem token = result at source view
    cases view with
    | source isSource =>
        exact isSource
    | _ =>
        cases source
  · rw [passed] at source
    cases source

theorem ReadPlace.isSource_of_mem_roles {place : ReadPlace} {token : Token} {operands : List Token}
    (member : (token, Role.source) ∈ place.roles operands) : token.isSource = true := by
  induction operands generalizing place with
  | nil =>
      exact absurd member List.not_mem_nil
  | cons first rest ih =>
      rcases List.mem_cons.mp member with same | later
      · obtain ⟨rfl, source⟩ := Prod.mk.inj same
        exact isSource_of_take source.symm
      · exact ih later

/-- The roles of a statement without a fault are those of items. -/
theorem readsItems_of_readRoles {operands : List Token}
    (noStray : tokensWithRole .stray (readRoles operands).1 = [])
    (closed : (readRoles operands).2.unclosed? = none) :
    ReadsItems operands (tokensWithRole .source (readRoles operands).1) := by
  rw [readRoles_eq] at noStray closed ⊢
  exact ReadPlace.accepts_item_iff.mp ⟨noStray, closed, rfl⟩

theorem ReadsItems.readRoles {operands names : List Token} (reads : ReadsItems operands names) :
    tokensWithRole .stray (readRoles operands).1 = [] ∧ (readRoles operands).2.unclosed? = none ∧
      tokensWithRole .source (readRoles operands).1 = names := by
  obtain ⟨noStray, closed, same⟩ := ReadPlace.accepts_item_iff.mpr reads
  rw [readRoles_eq]
  exact ⟨noStray, closed, same⟩

/-- A read statement reads the sources among its operands. Without any it is no such statement. -/
theorem readSourceStatement_cases (keyword : Token) (operands : List Token) :
    tokensWithRole .source (readRoles operands).1 = [] ∧
        (readSourceStatement keyword operands).1 = .other ∨
      tokensWithRole .source (readRoles operands).1 ≠ [] ∧
        (readSourceStatement keyword operands).1 =
          .readSource keyword.mention
            ((tokensWithRole .source (readRoles operands).1).map Token.mention) := by
  unfold readSourceStatement
  generalize readRoles operands = read
  obtain ⟨roles, place⟩ := read
  cases sources : tokensWithRole .source roles with
  | nil =>
      exact .inl ⟨rfl, by simp [sources]⟩
  | cons first more =>
      exact .inr ⟨List.cons_ne_nil first more, by simp [sources]⟩

theorem readByItems_readSourceStatement (keyword : Token) (operands : List Token) :
    ReadByItems keyword operands (readSourceStatement keyword operands).1
      (readSourceStatement keyword operands).2 where
  faultless := by
    rw [diagnostics_readSourceStatement]
    constructor
    · intro noFault
      simp only [List.append_eq_nil_iff, List.map_eq_nil_iff, Option.toList_eq_nil_iff,
        List.head?_eq_none_iff] at noFault
      obtain ⟨⟨closed, noStray⟩, noMissing⟩ := noFault
      refine ⟨_, readsItems_of_readRoles noStray closed, fun unnamed => ?_⟩
      rw [if_pos unnamed] at noMissing
      exact List.cons_ne_nil _ _ noMissing
    · rintro ⟨names, reads, nonempty⟩
      obtain ⟨noStray, closed, same⟩ := reads.readRoles
      simp [noStray, closed, same, nonempty]
  named := by
    intro names reads nonempty
    obtain ⟨_, _, same⟩ := reads.readRoles
    rw [← same] at nonempty ⊢
    rcases readSourceStatement_cases keyword operands with ⟨unnamed, _⟩ | ⟨_, statement⟩
    · exact absurd unnamed nonempty
    · exact statement
  unnamed := by
    intro reads
    obtain ⟨noStray, closed, unnamed⟩ := reads.readRoles
    rcases readSourceStatement_cases keyword operands with ⟨_, statement⟩ | ⟨nonempty, _⟩
    · exact ⟨statement, by simp [diagnostics_readSourceStatement, noStray, closed, unnamed]⟩
    · exact absurd unnamed nonempty
  reads := by
    rcases readSourceStatement_cases keyword operands with
      ⟨unnamed, statement⟩ | ⟨nonempty, statement⟩
    · exact .inl ⟨statement, by simp [diagnostics_readSourceStatement, unnamed]⟩
    · have part := tokensWithRole_sublist .source (readRoles operands).1
      rw [(areRoles_readRoles operands).operands] at part
      refine .inr ⟨_, nonempty, part, fun name member => ?_, statement, ?_⟩
      · rw [mem_tokensWithRole, readRoles_eq] at member
        exact ReadPlace.isSource_of_mem_roles member
      · simp [diagnostics_readSourceStatement, nonempty, Token.fault]

end Statements

/-! ### Segments -/

section Segments

variable {tokens operands : List Token} {front back : List Segment} {segment : Segment}
  {keyword : Token}

/-- A statement that reads datasets is read by itself if no procedure step is open at it. -/
theorem Parsed.ofTokens_of_readsDatasets (cut : Segment.ofTokens tokens = front ++ segment :: back)
    (noStep : stepOpen front = false) (body : segment.body = keyword :: operands)
    (reads : keyword.keyword?.any Keyword.readsDatasets = true) :
    ofTokens tokens =
      ofSegments front ++ ⟨[(readSourceStatement keyword operands).1],
        (readSourceStatement keyword operands).2⟩ ++ ofSegments back := by
  obtain ⟨_, stop⟩ := segment
  cases body
  obtain ⟨kind, isKeyword, readsDatasets⟩ :
      ∃ kind, keyword.keyword? = some kind ∧ kind.readsDatasets = true := by
    cases isKeyword : keyword.keyword? with
    | none =>
        rw [isKeyword] at reads
        exact absurd reads Bool.false_ne_true
    | some kind =>
        rw [isKeyword] at reads
        exact ⟨kind, rfl, reads⟩
  have fresh := Segment.readFresh_of_readsDatasets isKeyword readsDatasets operands stop
  have noBound : Segment.boundsStep ⟨keyword :: operands, stop⟩ = false := by
    cases kind <;> simp_all [Segment.boundsStep, Keyword.readsDatasets]
  have closed : stepOpen [⟨keyword :: operands, stop⟩] = false := by
    simp [stepOpen, noBound]
  have own : ofSegments [⟨keyword :: operands, stop⟩] =
      ⟨[(readSourceStatement keyword operands).1], (readSourceStatement keyword operands).2⟩ := by
    simp [ofSegments, Reading.add_eq, Reading.finished, Segment.read, fresh]
  rw [ofTokens_eq_ofSegments, cut, ofSegments_append (.inl noStep), ← List.singleton_append,
    ofSegments_append (.inl closed), own]
  simp [append_def]

/-- The segments of tokens are the stretches between semicolons up to the end of the text, and one
    that reads datasets is read by the items of its operands if no procedure step is open at it. -/
theorem Parsed.readByItems_ofTokens (tokens : List Token) :
    (Segment.ofTokens tokens).map Segment.body =
        ((tokens.takeWhile (!·.isEnd)).splitOnP (·.isMark ';')).filter (!·.isEmpty) ∧
      ∀ front segment back keyword operands,
        Segment.ofTokens tokens = front ++ segment :: back → stepOpen front = false →
        segment.body = keyword :: operands →
        keyword.keyword?.any Keyword.readsDatasets = true →
        ∃ statement diagnostics,
          ofTokens tokens =
            ofSegments front ++ ⟨[statement], diagnostics⟩ ++ ofSegments back ∧
          ReadByItems keyword operands statement diagnostics :=
  ⟨Segment.bodies_ofTokens tokens, fun _ _ _ keyword operands cut noStep body reads =>
    ⟨_, _, ofTokens_of_readsDatasets cut noStep body reads,
      readByItems_readSourceStatement keyword operands⟩⟩

end Segments

end DatasetLineage
