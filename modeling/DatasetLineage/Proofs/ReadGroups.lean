/-
Module: DatasetLineage.Proofs.ReadGroups
Purpose: Which names of a read statement stand in parentheses. A group in parentheses is passed over
  as a whole, but a parenthesis that is the value of an option opens no group: what stands behind it
  is read as if it stood outside. So a name stands in parentheses if and only if each of those that
  are open at it is the value of an option, and there is none such in a statement in which no option
  has a parenthesis for its value.
Main exports: OperandUse, operandUses, sourceUses, ReadsOutsideGroups, NoSourceInside,
  ReadPlace.Within, sources_readRoles, ReadsSources, readsSources_readSourceStatement,
  Parsed.readsSources_ofTokens, readsOutsideGroups_iff_of_text
-/
import DatasetLineage.Proofs.ReadGrammar

namespace DatasetLineage

/-- The parentheses that are open behind a token, the latest first. It is kept of each whether it is
    the value of an option. One that closes none counts for nothing. -/
def Token.enclosingBehind (token : Token) (isValue : Bool) (enclosing : List Bool) : List Bool :=
  if token.isMark '(' then isValue :: enclosing
  else if token.isMark ')' then enclosing.tail
  else enclosing

/-- The number of tokens behind a token that belong to an option, if `pending` of them did so in
    front of it: the equals sign and the value, if the token is an option in no group. -/
def pendingBehind (token : Token) (rest : List Token) (enclosing : List Bool) (pending : Nat) :
    Nat :=
  if pending = 0 ∧ enclosing.all id = true ∧ token.isOption = true ∧
      rest.head?.any (·.isMark '=') = true then 2
  else pending - 1

/-- A token as it stands among the operands of a read statement.
    - `isValue`: whether it is the value of an option.
    - `enclosing`: for each parenthesis that is open at it, the latest first, whether it is the
      value of an option. -/
structure OperandUse where
  token : Token
  isValue : Bool
  enclosing : List Bool
deriving DecidableEq, Repr

/-- Whether the token is a source: it can be one, it is no value, and it stands in no group, which
    means that all parentheses around it are values. -/
def OperandUse.isSource (use : OperandUse) : Bool :=
  use.token.isSource && !use.isValue && use.enclosing.all id

/-- How tokens stand among the operands of a read statement. In front of them the parentheses
    `enclosing` are open, and the first `pending` of them belong to an option in front. -/
def operandUses (enclosing : List Bool) (pending : Nat) : List Token → List OperandUse
  | [] => []
  | token :: rest =>
    ⟨token, pending == 1, enclosing⟩ ::
      operandUses (token.enclosingBehind (pending == 1) enclosing)
        (pendingBehind token rest enclosing pending) rest

/-- The sources among the operands of a read statement. -/
def sourceUses (operands : List Token) : List OperandUse :=
  (operandUses [] 0 operands).filter OperandUse.isSource

/-- The number of parentheses that are open behind operands. -/
def depthOf (operands : List Token) : Nat :=
  operands.foldl (fun depth token => token.depthBehind depth) 0

/-- Whether no identifier in parentheses is a name of a statement with these operands. -/
def ReadsOutsideGroups (operands : List Token) : Statement → Prop
  | .readSource _ names => ∀ front token back, operands = front ++ token :: back →
      token.name?.isSome = true → depthOf front ≠ 0 → token.mention ∉ names
  | _ => True

/-- Whether no source stands in parentheses, be they values or not. -/
def NoSourceInside (operands : List Token) : Prop :=
  ∀ use ∈ sourceUses operands, use.enclosing = []

instance (operands : List Token) : Decidable (NoSourceInside operands) :=
  inferInstanceAs (Decidable (∀ use ∈ sourceUses operands, _))

/-- What a read statement is by the sources among its operands. -/
structure ReadsSources (keyword : Token) (operands : List Token) (statement : Statement) :
    Prop where
  /-- The sources are the datasets of the statement, in order. -/
  sources : sourceUses operands = [] ∧ statement = .other ∨
    sourceUses operands ≠ [] ∧ statement =
      .readSource keyword.mention ((sourceUses operands).map fun use => use.token.mention)
  /-- A source that stands in parentheses is read all the same. -/
  inside : ReadsOutsideGroups operands statement → NoSourceInside operands
  /-- No identifier in parentheses is read if no source stands there. -/
  outside : (operands.map Token.position).Nodup → NoSourceInside operands →
    ReadsOutsideGroups operands statement
  /-- No source stands in parentheses if none of these is the value of an option. -/
  plain : (∀ front option equals value back,
      operands = front ++ option :: equals :: value :: back → option.isOption = true →
        equals.isMark '=' = true → value.isMark '(' = false) → NoSourceInside operands

/-! ### Uses of operands -/

section Uses

variable {token : Token} {use : OperandUse} {rest tokens : List Token} {enclosing : List Bool}
  {pending : Nat}

theorem length_enclosingBehind (token : Token) (isValue : Bool) (enclosing : List Bool) :
    (token.enclosingBehind isValue enclosing).length = token.depthBehind enclosing.length := by
  unfold Token.enclosingBehind Token.depthBehind
  split
  · rfl
  · split
    · exact List.length_tail
    · rfl

theorem map_token_operandUses (enclosing : List Bool) (pending : Nat) (tokens : List Token) :
    (operandUses enclosing pending tokens).map OperandUse.token = tokens := by
  induction tokens generalizing enclosing pending with
  | nil =>
      rfl
  | cons token rest ih =>
      rw [operandUses, List.map_cons, ih]

/-- A token is used with as many parentheses around it as are open behind the tokens in front. -/
theorem exists_use (front : List Token) (token : Token) (back : List Token)
    (enclosing : List Bool) (pending : Nat) :
    ∃ use ∈ operandUses enclosing pending (front ++ token :: back), use.token = token ∧
      use.enclosing.length =
        front.foldl (fun depth token => token.depthBehind depth) enclosing.length := by
  induction front generalizing enclosing pending with
  | nil =>
      exact ⟨_, List.mem_cons_self, rfl, rfl⟩
  | cons first front ih =>
      obtain ⟨use, later, same, depth⟩ := ih (first.enclosingBehind (pending == 1) enclosing)
        (pendingBehind first (front ++ token :: back) enclosing pending)
      rw [length_enclosingBehind] at depth
      exact ⟨use, List.mem_cons_of_mem _ later, same, depth⟩

theorem exists_split_of_mem (member : use ∈ operandUses enclosing pending tokens) :
    ∃ front back, tokens = front ++ use.token :: back ∧
      use.enclosing.length =
        front.foldl (fun depth token => token.depthBehind depth) enclosing.length := by
  induction tokens generalizing enclosing pending with
  | nil =>
      exact absurd member List.not_mem_nil
  | cons token rest ih =>
      rcases List.mem_cons.mp member with rfl | later
      · exact ⟨[], rest, rfl, rfl⟩
      · obtain ⟨front, back, rfl, depth⟩ := ih later
        rw [length_enclosingBehind] at depth
        exact ⟨token :: front, back, rfl, depth⟩

/-- How many of the tokens behind others belong to an option at the end of these. -/
inductive Pends : List Token → Nat → List Token → Prop where
  | none (before tokens : List Token) : Pends before 0 tokens
  | equals {option equals : Token} (before rest : List Token) (isOption : option.isOption = true)
      (isEquals : equals.isMark '=' = true) : Pends (before ++ [option]) 2 (equals :: rest)
  | value {option equals : Token} (before tokens : List Token) (isOption : option.isOption = true)
      (isEquals : equals.isMark '=' = true) : Pends (before ++ [option, equals]) 1 tokens

theorem Pends.behind {before : List Token} (pends : Pends before pending (token :: rest))
    (enclosing : List Bool) :
    Pends (before ++ [token]) (pendingBehind token rest enclosing pending) rest := by
  cases pends with
  | none =>
      unfold pendingBehind
      split
      · next begins =>
          obtain ⟨-, -, isOption, isEquals⟩ := begins
          cases rest with
          | nil =>
              exact absurd isEquals Bool.false_ne_true
          | cons equals rest =>
              exact .equals before rest isOption isEquals
      · exact .none _ _
  | equals before _ isOption isEquals =>
      rw [List.append_assoc]
      exact .value before rest isOption isEquals
  | value =>
      exact .none _ _

/-- The value of an option stands directly behind the option and its equals sign. -/
theorem exists_option_of_isValue {before : List Token} (pends : Pends before pending tokens)
    (member : use ∈ operandUses enclosing pending tokens) (isValue : use.isValue = true) :
    ∃ front option equals back, before ++ tokens = front ++ option :: equals :: use.token :: back ∧
      option.isOption = true ∧ equals.isMark '=' = true := by
  induction tokens generalizing before enclosing pending with
  | nil =>
      exact absurd member List.not_mem_nil
  | cons token rest ih =>
      rcases List.mem_cons.mp member with rfl | later
      · cases pends with
        | none =>
            cases isValue
        | equals =>
            cases isValue
        | value front _ isOption isEquals =>
            exact ⟨front, _, _, rest, by simp, isOption, isEquals⟩
      · obtain ⟨front, option, equals, back, same, isOption, isEquals⟩ :=
          ih (pends.behind enclosing) later
        rw [List.append_assoc] at same
        exact ⟨front, option, equals, back, same, isOption, isEquals⟩

/-- Without a parenthesis for a value, no parenthesis around a token is one. -/
theorem not_mem_enclosing_of_mem
    (noValue : ∀ use ∈ operandUses enclosing pending tokens, use.isValue = true →
      use.token.isMark '(' = false)
    (noneAround : true ∉ enclosing) (member : use ∈ operandUses enclosing pending tokens) :
    true ∉ use.enclosing := by
  induction tokens generalizing enclosing pending with
  | nil =>
      exact absurd member List.not_mem_nil
  | cons token rest ih =>
      obtain ⟨here, behind⟩ := List.forall_mem_cons.mp noValue
      rcases List.mem_cons.mp member with rfl | later
      · exact noneAround
      · refine ih behind ?_ later
        unfold Token.enclosingBehind
        split
        · next opens =>
            cases isValue : pending == 1 with
            | false =>
                simpa using noneAround
            | true =>
                exact absurd opens (by simp [here isValue])
        · split
          · exact fun inTail => noneAround (List.mem_of_mem_tail inTail)
          · exact noneAround

/-- If no option has a parenthesis for its value, no source stands in parentheses. -/
theorem noSourceInside_of_plain
    (plain : ∀ front option equals value back,
      tokens = front ++ option :: equals :: value :: back → option.isOption = true →
        equals.isMark '=' = true → value.isMark '(' = false) :
    NoSourceInside tokens := by
  intro use member
  obtain ⟨inUses, isSource⟩ := List.mem_filter.mp member
  have noneAround : true ∉ use.enclosing := by
    refine not_mem_enclosing_of_mem ?_ List.not_mem_nil inUses
    intro other isUse isValue
    obtain ⟨front, option, equals, back, same, isOption, isEquals⟩ :=
      exists_option_of_isValue (.none [] tokens) isUse isValue
    exact plain front option equals other.token back same isOption isEquals
  have allValues : use.enclosing.all id = true := (Bool.and_eq_true_iff.mp isSource).2
  cases around : use.enclosing with
  | nil =>
      rfl
  | cons latest others =>
      rw [around] at allValues noneAround
      have isValue : latest = true := (List.all_eq_true.mp allValues) latest List.mem_cons_self
      exact absurd (isValue ▸ List.mem_cons_self) noneAround

end Uses

/-! ### Places and open groups -/

section Places

variable {token : Token} {rest operands : List Token} {enclosing : List Bool} {pending : Nat}
  {place : ReadPlace}

/-- How a place stands to the parentheses that are open there and to the option in front. In a group
    the parenthesis of the group and those behind it are no values; all others are. -/
def ReadPlace.Within (place : ReadPlace) (enclosing : List Bool) (pending : Nat)
    (rest : List Token) : Prop :=
  match place with
  | item => enclosing.all id = true ∧ pending = 0
  | group _ inner => pending = 0 ∧ ∃ values : List Bool, values.all id = true ∧
      enclosing = List.replicate (inner + 1) false ++ values
  | optionSeen => enclosing.all id = true ∧
      pending = if rest.head?.any (·.isMark '=') = true then 2 else 0
  | optionValue => enclosing.all id = true ∧ pending = 1

theorem isOption_of_isMark {c : Char} (isMark : token.isMark c = true) :
    token.isOption = false := by
  rw [Token.isOption, name?_of_isMark isMark]
  rfl

theorem isSource_of_isMark {c : Char} (isMark : token.isMark c = true) :
    token.isSource = false := by
  rw [Token.isSource, name?_of_isMark isMark]
  rfl

theorem enclosingBehind_of_other (notOpening : token.isMark '(' = false)
    (notClosing : token.isMark ')' = false) (isValue : Bool) (enclosing : List Bool) :
    token.enclosingBehind isValue enclosing = enclosing := by
  simp [Token.enclosingBehind, notOpening, notClosing]

/-- Outside groups no token but an opening parenthesis that is no value changes that all
    parentheses around are values. -/
theorem all_enclosingBehind (values : enclosing.all id = true) {isValue : Bool}
    (noGroup : token.isMark '(' = true → isValue = true) :
    (token.enclosingBehind isValue enclosing).all id = true := by
  unfold Token.enclosingBehind
  split
  · next opens =>
      simpa [noGroup opens] using values
  · split
    · rw [List.all_eq_true] at values ⊢
      exact fun isValue inTail => values isValue (List.mem_of_mem_tail inTail)
    · exact values

theorem isMark_of_identifier {name : String} (kind : token.kind = .identifier name) (c : Char) :
    token.isMark c = false := by
  simp [Token.isMark, kind]

theorem isSource_of_isOption (isOption : token.isOption = true) : token.isSource = false := by
  obtain ⟨name, kind, option⟩ := Token.exists_name_of_isOption isOption
  simp [Token.isSource, Token.name?, kind, option]

theorem pendingBehind_of_not_isOption (notOption : token.isOption = false) (rest : List Token)
    (enclosing : List Bool) (pending : Nat) :
    pendingBehind token rest enclosing pending = pending - 1 := by
  simp [pendingBehind, notOption]

/-- A token that begins neither a group nor an option leads back to the start of an operand. -/
theorem within_item_of_other (values : enclosing.all id = true)
    (notOpening : token.isMark '(' = false) (notOption : token.isOption = false)
    (rest : List Token) :
    ReadPlace.item.Within (token.enclosingBehind false enclosing)
      (pendingBehind token rest enclosing 0) rest := by
  refine ⟨all_enclosingBehind values fun opens => ?_, pendingBehind_of_not_isOption notOption _ _ _⟩
  exact absurd opens (by simp [notOpening])

/-- At the start of an operand a token has the role and leads to the place that it should. -/
theorem ReadPlace.within_take_item (values : enclosing.all id = true) (token : Token)
    (rest : List Token) :
    ((item.take token).1 = .source ↔ token.isSource = true) ∧
      (item.take token).2.Within (token.enclosingBehind false enclosing)
        (pendingBehind token rest enclosing 0) rest := by
  have view : TakesItem token (item.take token) := takesItem token
  generalize item.take token = result at view
  cases view with
  | opens isMark =>
      refine ⟨by simp [isSource_of_isMark isMark], ?_, enclosing, values, ?_⟩
      · exact pendingBehind_of_not_isOption (isOption_of_isMark isMark) _ _ _
      · simp [Token.enclosingBehind, isMark]
  | separates isSeparator =>
      obtain ⟨c, isMark, notOpening⟩ :
          ∃ c, token.isMark c = true ∧ token.isMark '(' = false := by
        rcases Bool.or_eq_true_iff.mp isSeparator with isComma | isSlash
        · exact ⟨',', isComma, by simp [Token.isMark, eq_of_beq isComma]⟩
        · exact ⟨'/', isSlash, by simp [Token.isMark, eq_of_beq isSlash]⟩
      exact ⟨by simp [isSource_of_isMark isMark],
        within_item_of_other values notOpening (isOption_of_isMark isMark) rest⟩
  | option isOption =>
      obtain ⟨name, kind, _⟩ := Token.exists_name_of_isOption isOption
      refine ⟨by simp [isSource_of_isOption isOption], ?_, ?_⟩
      · refine all_enclosingBehind values fun opens => ?_
        exact absurd opens (by simp [isMark_of_identifier kind])
      · simp [pendingBehind, values, isOption]
  | source isSource =>
      obtain ⟨name, kind, noOption⟩ := Token.exists_name_of_isSource isSource
      have notOption : token.isOption = false := by
        simp [Token.isOption, Token.name?, kind, noOption]
      exact ⟨by simp [isSource],
        within_item_of_other values (isMark_of_identifier kind '(') notOption rest⟩
  | stray notOpening notSeparator notOption notSource =>
      exact ⟨by simp [notSource], within_item_of_other values notOpening notOption rest⟩

/-- A token in a group is passed over, and leads out of it at the parenthesis that closes it. -/
theorem ReadPlace.within_take_group {opening : Token} {inner : Nat}
    (within : (group opening inner).Within enclosing pending (token :: rest)) :
    ((group opening inner).take token).2.Within
      (token.enclosingBehind (pending == 1) enclosing)
        (pendingBehind token rest enclosing pending) rest := by
  obtain ⟨rfl, values, areValues, rfl⟩ := within
  have inGroup : pendingBehind token rest (List.replicate (inner + 1) false ++ values) 0 = 0 := by
    simp [pendingBehind, List.replicate_succ]
  rw [inGroup]
  cases opens : token.isMark '(' with
  | true =>
      rw [take_group_of_opening opens]
      exact ⟨rfl, values, areValues, by simp [Token.enclosingBehind, opens, List.replicate_succ]⟩
  | false =>
      cases closes : token.isMark ')' with
      | false =>
          rw [take_group_of_other opens closes, enclosingBehind_of_other opens closes]
          exact ⟨rfl, values, areValues, rfl⟩
      | true =>
          have popped : ∀ isValue, token.enclosingBehind isValue
              (List.replicate (inner + 1) false ++ values) =
                List.replicate inner false ++ values := by
            simp [Token.enclosingBehind, opens, closes, List.replicate_succ]
          rw [popped]
          cases inner with
          | zero =>
              rw [take_group_zero_of_closing closes]
              exact ⟨areValues, rfl⟩
          | succ outer =>
              rw [take_group_of_closing closes]
              exact ⟨rfl, values, areValues, rfl⟩

/-- A token is a source where it should be one, and leads to a place that stands to the parentheses
    as it should. -/
theorem ReadPlace.within_take (within : place.Within enclosing pending (token :: rest)) :
    ((place.take token).1 = .source ↔
        (⟨token, pending == 1, enclosing⟩ : OperandUse).isSource = true) ∧
      (place.take token).2.Within (token.enclosingBehind (pending == 1) enclosing)
        (pendingBehind token rest enclosing pending) rest := by
  cases place with
  | item =>
      obtain ⟨values, rfl⟩ := within
      have taken := within_take_item values token rest
      exact ⟨by simpa [OperandUse.isSource, values] using taken.1, taken.2⟩
  | group opening inner =>
      refine ⟨?_, within_take_group within⟩
      obtain ⟨_, values, _, rfl⟩ := within
      rw [take_group_passed]
      simp [OperandUse.isSource, List.replicate_succ]
  | optionSeen =>
      obtain ⟨values, same⟩ := within
      cases isEquals : token.isMark '=' with
      | true =>
          have pending : pending = 2 := by simpa [isEquals] using same
          subst pending
          rw [take_optionSeen_of_isEquals isEquals]
          refine ⟨by simp [OperandUse.isSource, isSource_of_isMark isEquals], ?_, ?_⟩
          · refine all_enclosingBehind values fun opens => ?_
            simp [Token.isMark, eq_of_beq isEquals] at opens
          · exact pendingBehind_of_not_isOption (isOption_of_isMark isEquals) _ _ _
      | false =>
          have noPending : pending = 0 := by simpa [isEquals] using same
          subst noPending
          rw [take_optionSeen_of_other isEquals]
          have taken := within_take_item values token rest
          exact ⟨by simpa [OperandUse.isSource, values] using taken.1, taken.2⟩
  | optionValue =>
      obtain ⟨values, rfl⟩ := within
      refine ⟨by simp [take, OperandUse.isSource], ?_, ?_⟩
      · exact all_enclosingBehind values fun _ => rfl
      · simp [pendingBehind]

/-- The sources behind a place are those that should be. -/
theorem ReadPlace.sources_roles (within : place.Within enclosing pending operands) :
    tokensWithRole .source (place.roles operands) =
      ((operandUses enclosing pending operands).filter OperandUse.isSource).map
        OperandUse.token := by
  induction operands generalizing place enclosing pending with
  | nil =>
      rfl
  | cons token rest ih =>
      obtain ⟨isSource, behind⟩ := within_take within
      rw [roles, tokensWithRole_cons, operandUses, List.filter_cons, ih behind]
      by_cases source : (place.take token).1 = .source
      · rw [if_pos source, if_pos (isSource.mp source), List.map_cons]
      · rw [if_neg source, if_neg (fun holds => source (isSource.mpr holds))]

theorem sources_readRoles (operands : List Token) :
    tokensWithRole .source (readRoles operands).1 =
      (sourceUses operands).map OperandUse.token := by
  rw [readRoles_eq]
  exact ReadPlace.sources_roles ⟨rfl, rfl⟩

end Places

/-! ### Statements -/

section Statements

variable {keyword token : Token} {operands : List Token} {statement : Statement}

theorem sources_readSourceStatement (keyword : Token) (operands : List Token) :
    sourceUses operands = [] ∧ (readSourceStatement keyword operands).1 = .other ∨
      sourceUses operands ≠ [] ∧ (readSourceStatement keyword operands).1 =
        .readSource keyword.mention
          ((sourceUses operands).map fun use => use.token.mention) := by
  have read := readSourceStatement_cases keyword operands
  simpa only [sources_readRoles, ne_eq, List.map_eq_nil_iff, List.map_map, Function.comp_def]
    using read

theorem noSourceInside_of_readsOutsideGroups
    (outside : ReadsOutsideGroups operands (readSourceStatement keyword operands).1) :
    NoSourceInside operands := by
  intro use member
  obtain ⟨inUses, isSource⟩ := List.mem_filter.mp member
  obtain ⟨front, back, split, depth⟩ := exists_split_of_mem inUses
  rcases sources_readSourceStatement keyword operands with ⟨noSource, _⟩ | ⟨_, statement⟩
  · exact absurd (noSource ▸ member) List.not_mem_nil
  · rw [statement] at outside
    have isName : use.token.name?.isSome = true := by
      rw [OperandUse.isSource, Bool.and_eq_true, Bool.and_eq_true] at isSource
      obtain ⟨name, kind, _⟩ := Token.exists_name_of_isSource isSource.1.1
      simp [Token.name?, kind]
    by_contra inGroup
    refine outside front use.token back split isName ?_ (List.mem_map_of_mem member)
    intro noDepth
    exact inGroup (List.length_eq_zero_iff.mp (depth.trans noDepth))

/-- If no two operands are at one place, an identifier that is read is a source. -/
theorem readsOutsideGroups_of_noSourceInside (distinct : (operands.map Token.position).Nodup)
    (noneInside : NoSourceInside operands) :
    ReadsOutsideGroups operands (readSourceStatement keyword operands).1 := by
  rcases sources_readSourceStatement keyword operands with ⟨_, statement⟩ | ⟨_, statement⟩
  · rw [statement]
    trivial
  · rw [statement]
    rintro front token back rfl _ inGroup isRead
    obtain ⟨source, member, sameMention⟩ := List.mem_map.mp isRead
    obtain ⟨use, inUses, rfl, depth⟩ := exists_use front token back [] 0
    have samePlace : source.token.position = use.token.position := by
      simpa using congrArg Mention.position sameMention
    have distinctUses : ((operandUses [] 0 (front ++ use.token :: back)).map
        fun use => use.token.position).Nodup := by
      rw [← map_token_operandUses [] 0 (front ++ use.token :: back), List.map_map] at distinct
      exact distinct
    have same : source = use :=
      List.inj_on_of_nodup_map distinctUses (List.mem_of_mem_filter member) inUses samePlace
    rw [← same, noneInside source member] at depth
    exact inGroup depth.symm

theorem readsSources_readSourceStatement (keyword : Token) (operands : List Token) :
    ReadsSources keyword operands (readSourceStatement keyword operands).1 where
  sources := sources_readSourceStatement keyword operands
  inside := noSourceInside_of_readsOutsideGroups
  outside := readsOutsideGroups_of_noSourceInside
  plain := noSourceInside_of_plain

end Statements

/-! ### Programs -/

section Programs

/-- A segment that reads datasets reads the sources among its operands if no procedure step is open
    at it. -/
theorem Parsed.readsSources_ofTokens (tokens : List Token) :
    (Segment.ofTokens tokens).map Segment.body =
        ((tokens.takeWhile (!·.isEnd)).splitOnP (·.isMark ';')).filter (!·.isEmpty) ∧
      ∀ front segment back keyword operands,
        Segment.ofTokens tokens = front ++ segment :: back → stepOpen front = false →
        segment.body = keyword :: operands →
        keyword.keyword?.any Keyword.readsDatasets = true →
        ∃ statement diagnostics,
          ofTokens tokens =
            ofSegments front ++ ⟨[statement], diagnostics⟩ ++ ofSegments back ∧
          ReadsSources keyword operands statement :=
  ⟨Segment.bodies_ofTokens tokens, fun _ _ _ keyword operands cut noStep body reads =>
    ⟨_, _, ofTokens_of_readsDatasets cut noStep body reads,
      readsSources_readSourceStatement keyword operands⟩⟩

/-- A parenthesis that is the value of an option encloses a name. -/
theorem Parsed.not_readsOutsideGroups_open :
    let tokens := (Scanned.ofText "set a open=(defer);").tokens
    ∃ segment keyword operands statement, Segment.ofTokens tokens = [segment] ∧
      segment.body = keyword :: operands ∧ (ofTokens tokens).statements = [statement] ∧
      statement = .readSource ⟨"set", 1, 1⟩ [⟨"a", 1, 5⟩, ⟨"defer", 1, 13⟩] ∧
      ¬ NoSourceInside operands ∧ ¬ ReadsOutsideGroups operands statement := by
  refine ⟨_, _, _, _, rfl, rfl, ?_, rfl, ?_, ?_⟩
  · decide +kernel
  · decide +kernel
  · intro outside
    refine outside [⟨.identifier "a", "a", ⟨1, 5⟩⟩, ⟨.identifier "open", "open", ⟨1, 7⟩⟩,
        ⟨.mark '=', "=", ⟨1, 11⟩⟩, ⟨.mark '(', "(", ⟨1, 12⟩⟩]
      ⟨.identifier "defer", "defer", ⟨1, 13⟩⟩ [⟨.mark ')', ")", ⟨1, 18⟩⟩] ?_ rfl ?_ ?_
    · decide +kernel
    · decide
    · decide

theorem Segment.body_sublist {tokens : List Token} {segment : Segment}
    (member : segment ∈ ofTokens tokens) : segment.body.Sublist tokens := by
  have part := List.sublist_flatten_of_mem (List.mem_map_of_mem (f := body) member)
  rw [← List.flatMap_def] at part
  exact part.trans (flatMap_body_sublist tokens)

/-- In a text no two tokens are at one place. -/
theorem readsOutsideGroups_iff_of_text {text : String} {segment : Segment} {keyword : Token}
    {operands : List Token} (member : segment ∈ Segment.ofTokens (Scanned.ofText text).tokens)
    (body : segment.body = keyword :: operands) :
    ReadsOutsideGroups operands (readSourceStatement keyword operands).1 ↔
      NoSourceInside operands := by
  have part : operands.Sublist (Scanned.ofText text).tokens := by
    have whole := Segment.body_sublist member
    rw [body] at whole
    exact (List.sublist_cons_self keyword operands).trans whole
  have distinct : (operands.map Token.position).Nodup :=
    (Scanned.nodup_positions_ofText text).sublist (part.map Token.position)
  exact ⟨noSourceInside_of_readsOutsideGroups, readsOutsideGroups_of_noSourceInside distinct⟩

end Programs

end DatasetLineage
