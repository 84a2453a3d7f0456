/-
Module: DatasetLineage.Proofs.ReadRoles
Purpose: The roles of the operands of a read statement, token by token. At the start of an operand a
  token opens a group, separates, is an option, is a source, or is out of place; behind an option
  and inside of a group its place matters as well. Roles are given from any place on, so that what
  stands behind an operand can be told apart from it.
Main exports: Token.isSource, Token.isOption, Token.isSeparator, takesItem, ReadPlace.roles,
  ReadPlace.behind, ReadPlace.openGroups_behind_le, readRoles_eq
-/
import DatasetLineage.Program.Segment.Read

namespace DatasetLineage

namespace Token

/-- Whether a read statement takes the token for the name of a dataset: it is an identifier, and no
    option of such statements has this name. -/
def isSource (token : Token) : Bool := token.name?.any fun name => !isReadOption name

/-- Whether the token is the name of an option of read statements. -/
def isOption (token : Token) : Bool := token.name?.any isReadOption

/-- Whether the token is a comma or a slash. -/
def isSeparator (token : Token) : Bool := token.isMark ',' || token.isMark '/'

end Token

/-! ### Operands as items -/

section Tokens

variable {token : Token}

theorem Token.exists_name_of_isSource (isSource : token.isSource = true) :
    ∃ name, token.kind = .identifier name ∧ isReadOption name = false := by
  unfold Token.isSource name? at isSource
  split at isSource
  · next name kind =>
      exact ⟨name, kind, by simpa using isSource⟩
  · exact absurd isSource Bool.false_ne_true

theorem Token.exists_name_of_isOption (isOption : token.isOption = true) :
    ∃ name, token.kind = .identifier name ∧ isReadOption name = true := by
  unfold Token.isOption name? at isOption
  split at isOption
  · next name kind =>
      exact ⟨name, kind, by simpa using isOption⟩
  · exact absurd isOption Bool.false_ne_true

theorem Token.isMark_opening (isClosing : token.isMark ')' = true) : token.isMark '(' = false := by
  have kind : token.kind = .mark ')' := eq_of_beq isClosing
  simp [isMark, kind]

/-- What a token is at the start of an operand. -/
inductive TakesItem (token : Token) : Role × ReadPlace → Prop where
  | opens (isMark : token.isMark '(' = true) : TakesItem token (.passed, .group token 0)
  | separates (isSeparator : token.isSeparator = true) : TakesItem token (.passed, .item)
  | option (isOption : token.isOption = true) : TakesItem token (.passed, .optionSeen)
  | source (isSource : token.isSource = true) : TakesItem token (.source, .item)
  | stray (notOpening : token.isMark '(' = false) (notSeparator : token.isSeparator = false)
      (notOption : token.isOption = false) (notSource : token.isSource = false) :
      TakesItem token (.stray, .item)

theorem takesItem (token : Token) : TakesItem token (takeItem token) := by
  unfold takeItem
  split
  · next kind =>
      exact .opens (by simp [Token.isMark, kind])
  · next kind =>
      exact .separates (by simp [Token.isSeparator, Token.isMark, kind])
  · next kind =>
      exact .separates (by simp [Token.isSeparator, Token.isMark, kind])
  · next name kind =>
      cases option : isReadOption name with
      | false =>
          exact .source (by simp [Token.isSource, Token.name?, kind, option])
      | true =>
          exact .option (by simp [Token.isOption, Token.name?, kind, option])
  · next notOpening notComma notSlash notName =>
      have noName : token.name? = none := by
        unfold Token.name?
        split
        · next name kind =>
            exact absurd kind (notName name)
        · rfl
      have noMark : ∀ c, token.kind ≠ .mark c → token.isMark c = false :=
        fun c other => beq_eq_false_iff_ne.mpr other
      refine .stray (noMark '(' notOpening) ?_ ?_ ?_
      · rw [Token.isSeparator, noMark ',' notComma, noMark '/' notSlash]
        rfl
      · rw [Token.isOption, noName]
        rfl
      · rw [Token.isSource, noName]
        rfl

end Tokens

namespace ReadPlace

/-- The parenthesis of the group that a place is in. -/
def unclosed? : ReadPlace → Option Token
  | group opening _ => some opening
  | _ => none

/-- The roles of operands that stand behind a place. -/
def roles (place : ReadPlace) : List Token → List (Token × Role)
  | [] => []
  | token :: rest => (token, (place.take token).1) :: (place.take token).2.roles rest

/-- The place behind operands that stand behind a place. -/
def behind (place : ReadPlace) (operands : List Token) : ReadPlace :=
  operands.foldl (fun place token => (place.take token).2) place

theorem foldl_add (place : ReadPlace) (before : List (Token × Role)) (operands : List Token) :
    operands.foldl ReadRoles.add ⟨before, place⟩ =
      ⟨(place.roles operands).reverse ++ before, place.behind operands⟩ := by
  induction operands generalizing place before with
  | nil =>
      rfl
  | cons token rest ih =>
      rw [List.foldl_cons, ReadRoles.add, ih]
      simp [roles, behind]

end ReadPlace

theorem readRoles_eq (operands : List Token) :
    readRoles operands = (ReadPlace.item.roles operands, ReadPlace.item.behind operands) := by
  rw [readRoles, ReadPlace.foldl_add]
  simp

theorem tokensWithRole_cons (role : Role) (token : Token) (given : Role)
    (roles : List (Token × Role)) :
    tokensWithRole role ((token, given) :: roles) =
      if given = role then token :: tokensWithRole role roles else tokensWithRole role roles := by
  rw [tokensWithRole, List.filterMap_cons]
  split <;> simp_all [tokensWithRole]

namespace ReadPlace

/-! ### One operand at each place -/

section Take

variable {token opening : Token}

theorem take_item_of_opening (isOpening : token.isMark '(' = true) :
    item.take token = (.passed, group token 0) := by
  have kind : token.kind = .mark '(' := eq_of_beq isOpening
  simp [take, takeItem, kind]

theorem take_item_of_isSeparator (isSeparator : token.isSeparator = true) :
    item.take token = (.passed, item) := by
  rcases Bool.or_eq_true_iff.mp isSeparator with isComma | isSlash
  · have kind : token.kind = .mark ',' := eq_of_beq isComma
    simp [take, takeItem, kind]
  · have kind : token.kind = .mark '/' := eq_of_beq isSlash
    simp [take, takeItem, kind]

theorem take_item_of_isOption (isOption : token.isOption = true) :
    item.take token = (.passed, optionSeen) := by
  obtain ⟨name, kind, option⟩ := Token.exists_name_of_isOption isOption
  simp [take, takeItem, kind, option]

theorem take_item_of_isSource (isSource : token.isSource = true) :
    item.take token = (.source, item) := by
  obtain ⟨name, kind, noOption⟩ := Token.exists_name_of_isSource isSource
  simp [take, takeItem, kind, noOption]

theorem take_item_of_stray (notOpening : token.isMark '(' = false)
    (notSeparator : token.isSeparator = false) (notNamed : token.name? = none) :
    item.take token = (.stray, item) := by
  have takes := takesItem token
  rw [take]
  generalize takeItem token = taken at takes
  cases takes with
  | opens isOpening =>
      exact absurd (isOpening.symm.trans notOpening) Bool.noConfusion
  | separates isSeparator =>
      exact absurd (isSeparator.symm.trans notSeparator) Bool.noConfusion
  | option isOption =>
      simp [Token.isOption, notNamed] at isOption
  | source isSource =>
      simp [Token.isSource, notNamed] at isSource
  | stray _ _ _ _ =>
      rfl

/-- An equals sign begins no operand. -/
theorem take_item_of_isEquals (isEquals : token.isMark '=' = true) :
    item.take token = (.stray, item) := by
  have kind : token.kind = .mark '=' := eq_of_beq isEquals
  simp [take, takeItem, kind]

theorem take_optionSeen_of_isEquals (isEquals : token.isMark '=' = true) :
    optionSeen.take token = (.passed, optionValue) := by
  simp [take, isEquals]

theorem take_optionSeen_of_other (notEquals : token.isMark '=' = false) :
    optionSeen.take token = item.take token := by
  simp [take, notEquals]

/-- Every token of a group is passed over. -/
theorem take_group_passed (opening : Token) (depth : Nat) (token : Token) :
    (group opening depth).take token = (.passed, ((group opening depth).take token).2) := by
  unfold take
  dsimp only
  split
  · rfl
  · split
    · cases depth <;> rfl
    · rfl

theorem take_group_of_opening (isOpening : token.isMark '(' = true) (depth : Nat) :
    (group opening depth).take token = (.passed, group opening (depth + 1)) := by
  simp [take, isOpening]

theorem take_group_of_closing (isClosing : token.isMark ')' = true) (depth : Nat) :
    (group opening (depth + 1)).take token = (.passed, group opening depth) := by
  simp [take, isClosing, Token.isMark_opening isClosing]

theorem take_group_zero_of_closing (isClosing : token.isMark ')' = true) :
    (group opening 0).take token = (.passed, item) := by
  simp [take, isClosing, Token.isMark_opening isClosing]

theorem take_group_of_other (notOpening : token.isMark '(' = false)
    (notClosing : token.isMark ')' = false) (depth : Nat) :
    (group opening depth).take token = (.passed, group opening depth) := by
  simp [take, notOpening, notClosing]

end Take

/-- How many groups are open at a place. -/
def openGroups : ReadPlace → Nat
  | group _ inner => inner + 1
  | _ => 0

theorem openGroups_take_le (place : ReadPlace) (token : Token) :
    (place.take token).2.openGroups ≤ place.openGroups + 1 := by
  have item : (takeItem token).2.openGroups ≤ 1 := by
    have takes := takesItem token
    generalize takeItem token = taken at takes
    cases takes <;> simp [openGroups]
  cases place with
  | item =>
      exact item
  | group opening inner =>
      unfold take
      dsimp only
      split
      · exact Nat.le_refl _
      · split
        · cases inner <;> simp only [openGroups] <;> omega
        · exact Nat.le_succ _
  | optionSeen =>
      unfold take
      dsimp only
      split
      · exact Nat.zero_le _
      · exact item
  | optionValue =>
      exact Nat.zero_le _

/-- No more groups are open than there are tokens in front, so to count `2 ^ 31` open groups takes
    as many tokens of one statement. -/
theorem openGroups_behind_le (place : ReadPlace) (operands : List Token) :
    (place.behind operands).openGroups ≤ place.openGroups + operands.length := by
  induction operands generalizing place with
  | nil =>
      exact Nat.le_refl _
  | cons token rest ih =>
      have one := place.openGroups_take_le token
      have more := ih (place.take token).2
      rw [behind, List.foldl_cons, List.length_cons]
      rw [behind] at more
      omega

end ReadPlace

end DatasetLineage
