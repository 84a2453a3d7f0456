/-
Module: DatasetLineage.Proofs.JsonLayouts
Purpose: The two layouts of a JSON value differ in blanks between tokens only. The blanks of JSON
  are removed outside of string literals, where a quotation mark ends a literal unless it follows a
  backslash; what is left of a layout with lines of its own is the one without. Blanks in names and
  messages stand in literals and stay. Of the writer only what `WritesJson` says is used.
Main exports: isJsonBlank, JsonPlace, withoutLayout, Strips, EscapesJson.cases, WritesJson.strips,
  JsonValue.withoutLayout_render
-/
import DatasetLineage.Report.JsonValue

namespace DatasetLineage

/-- The blanks that may stand between the tokens of a JSON text. -/
def isJsonBlank (c : Char) : Bool := c == ' ' || c == '\t' || c == '\n' || c == '\r'

/-- Where a character of a JSON text stands.
    - `outside`: outside of string literals.
    - `inside`: in a string literal.
    - `escape`: in one, behind a backslash. -/
inductive JsonPlace where
  | outside
  | inside
  | escape
deriving DecidableEq, Repr

/-- The place behind a character. -/
def JsonPlace.next : JsonPlace → Char → JsonPlace
  | outside, c => if c = '\x22' then inside else outside
  | inside, c => if c = '\\' then escape else if c = '\x22' then outside else inside
  | escape, _ => inside

/-- A text that begins at a place, without the blanks outside of string literals. -/
def withoutLayout (place : JsonPlace) : List Char → List Char
  | [] => []
  | c :: rest =>
    if place = .outside ∧ isJsonBlank c = true then withoutLayout place rest
    else c :: withoutLayout (place.next c) rest

/-! ### Characters outside and inside of literals -/

section Characters

variable {c : Char} {text rest : List Char}

theorem withoutLayout_blank (blank : isJsonBlank c = true) (rest : List Char) :
    withoutLayout .outside (c :: rest) = withoutLayout .outside rest := by
  rw [withoutLayout, if_pos ⟨rfl, blank⟩]

theorem withoutLayout_mark (solid : isJsonBlank c = false) (noQuote : c ≠ '\x22')
    (rest : List Char) :
    withoutLayout .outside (c :: rest) = c :: withoutLayout .outside rest := by
  simp [withoutLayout, solid, JsonPlace.next, noQuote]

/-- In a literal every character stays. -/
theorem withoutLayout_inside (c : Char) (rest : List Char) :
    withoutLayout .inside (c :: rest) = c :: withoutLayout (JsonPlace.inside.next c) rest := by
  rw [withoutLayout, if_neg fun outside => JsonPlace.noConfusion outside.1]

theorem withoutLayout_escape (c : Char) (rest : List Char) :
    withoutLayout .escape (c :: rest) = c :: withoutLayout .inside rest := by
  rw [withoutLayout, if_neg fun outside => JsonPlace.noConfusion outside.1]
  rfl

/-- Characters of a literal that are neither backslashes nor quotation marks stay in it. -/
theorem withoutLayout_plain (plain : ∀ c ∈ text, c ≠ '\\' ∧ c ≠ '\x22') (rest : List Char) :
    withoutLayout .inside (text ++ rest) = text ++ withoutLayout .inside rest := by
  induction text with
  | nil =>
      rfl
  | cons c text ih =>
      rw [List.forall_mem_cons] at plain
      obtain ⟨⟨noBackslash, noQuote⟩, later⟩ := plain
      have here : JsonPlace.inside.next c = .inside := by
        simp [JsonPlace.next, noBackslash, noQuote]
      rw [List.cons_append, withoutLayout_inside, here, ih later, List.cons_append]

/-- How a character is written: behind a backslash by a letter of its own or by the digits of its
    code, or as it is. -/
theorem EscapesJson.cases {character : Char → List Char} (escapes : EscapesJson character)
    (c : Char) :
    (∃ letter, character c = ['\\', letter] ∧ escaped? letter = some c) ∨
      (character c = ['\\', 'u', '0', '0', hexDigit (c.toNat / 16), hexDigit (c.toNat % 16)] ∧
        c.toNat < 0x20) ∨
      (character c = [c] ∧ c ≠ '\\' ∧ c ≠ '\x22') := by
  by_cases hasLetter : ∃ letter, escaped? letter = some c
  · obtain ⟨letter, stands⟩ := hasLetter
    exact .inl ⟨letter, escapes.letter c letter stands, stands⟩
  · have noLetter : ∀ letter, escaped? letter ≠ some c := fun letter stands =>
      hasLetter ⟨letter, stands⟩
    by_cases below : c.toNat < 0x20
    · exact .inr (.inl ⟨escapes.control c noLetter below, below⟩)
    · refine .inr (.inr ⟨escapes.plain c noLetter below, ?_, ?_⟩)
      · rintro rfl
        exact noLetter '\\' rfl
      · rintro rfl
        exact noLetter '\x22' rfl

theorem hexDigit_plain : ∀ n < 16, hexDigit n ≠ '\\' ∧ hexDigit n ≠ '\x22' := by decide

/-- A written character stays, and the literal goes on behind it. -/
theorem EscapesJson.withoutLayout_character {character : Char → List Char}
    (escapes : EscapesJson character) (c : Char) (rest : List Char) :
    withoutLayout .inside (character c ++ rest) =
      character c ++ withoutLayout .inside rest := by
  have backslash : JsonPlace.inside.next '\\' = .escape := rfl
  rcases escapes.cases c with ⟨letter, written, _⟩ | ⟨written, control⟩ | ⟨written, plain⟩
  · rw [written]
    simp only [List.cons_append, List.nil_append]
    rw [withoutLayout_inside, backslash, withoutLayout_escape]
  · have high := hexDigit_plain (c.toNat / 16) (by omega)
    have low := hexDigit_plain (c.toNat % 16) (by omega)
    have digits : ∀ d ∈ ['0', '0', hexDigit (c.toNat / 16), hexDigit (c.toNat % 16)],
        d ≠ '\\' ∧ d ≠ '\x22' := by
      simp [high, low]
    rw [written, List.cons_append, List.cons_append, withoutLayout_inside, backslash,
      withoutLayout_escape, withoutLayout_plain digits]
    rfl
  · rw [written]
    exact withoutLayout_plain (by simpa using plain) rest

end Characters

/-- Whether a text outside of string literals is left as another one, whatever stands behind it. -/
def Strips (text left : List Char) : Prop :=
  ∀ rest, withoutLayout .outside (text ++ rest) = left ++ withoutLayout .outside rest

/-! ### Parts of a text -/

namespace Strips

variable {c : Char} {text left behind leftBehind : List Char}

theorem append (front : Strips text left) (back : Strips behind leftBehind) :
    Strips (text ++ behind) (left ++ leftBehind) := by
  intro rest
  rw [List.append_assoc, front, back, List.append_assoc]

theorem mark (solid : isJsonBlank c = false) (noQuote : c ≠ '\x22') (strips : Strips text left) :
    Strips (c :: text) (c :: left) := by
  intro rest
  rw [List.cons_append, withoutLayout_mark solid noQuote, strips, List.cons_append]

theorem blank (isBlank : isJsonBlank c = true) (strips : Strips text left) :
    Strips (c :: text) left := by
  intro rest
  rw [List.cons_append, withoutLayout_blank isBlank, strips]

theorem nil : Strips [] [] := fun _ => rfl

/-- Marks stay as they are. -/
theorem marks (solid : ∀ c ∈ text, isJsonBlank c = false ∧ c ≠ '\x22') : Strips text text := by
  induction text with
  | nil =>
      exact nil
  | cons c text ih =>
      rw [List.forall_mem_cons] at solid
      exact mark solid.1.1 solid.1.2 (ih solid.2)

/-- Nothing is left of blanks. -/
theorem blanks (blanks : ∀ c ∈ text, isJsonBlank c = true) : Strips text [] := by
  induction text with
  | nil =>
      exact nil
  | cons c text ih =>
      rw [List.forall_mem_cons] at blanks
      exact blank blanks.1 (ih blanks.2)

/-- A string literal stays as it is. -/
theorem quoted {character : Char → List Char} (escapes : EscapesJson character)
    (content : String) : Strips (quoted character content) (quoted character content) := by
  have inside : ∀ (chars rest : List Char),
      withoutLayout .inside (chars.flatMap character ++ '\x22' :: rest) =
        chars.flatMap character ++ '\x22' :: withoutLayout .outside rest := by
    intro chars rest
    induction chars with
    | nil =>
        exact withoutLayout_inside '\x22' rest
    | cons c chars ih =>
        rw [List.flatMap_cons, List.append_assoc, escapes.withoutLayout_character, ih,
          List.append_assoc]
  intro rest
  have opening : ∀ text, withoutLayout .outside ('\x22' :: text) =
      '\x22' :: withoutLayout .inside text := fun _ => rfl
  simp only [DatasetLineage.quoted, List.cons_append, List.append_assoc, List.nil_append,
    opening, inside]

theorem jsonNumber (n : Nat) : Strips (jsonNumber n) (jsonNumber n) := by
  apply marks
  intro c member
  have digit : c.isDigit = true := Nat.isDigit_of_mem_toDigits (by decide) (by decide) member
  constructor
  · rw [← Bool.not_eq_true]
    intro blank
    have isOne : c = ' ' ∨ c = '\t' ∨ c = '\n' ∨ c = '\r' := by
      simpa [isJsonBlank, or_assoc] using blank
    rcases isOne with rfl | rfl | rfl | rfl <;> exact absurd digit (by decide)
  · rintro rfl
    exact absurd digit (by decide)

/-! ### Elements between brackets -/

section Brackets

variable {α : Type} {elements : List α} {write writeLeft : α → List Char}
variable {line : Nat → List Char}

/-- Nothing is left of what starts a line, if that is blank. -/
theorem onNewLine (isBlank : ∀ level, ∀ c ∈ line level, isJsonBlank c = true) (level : Nat)
    (strips : Strips text left) : Strips (line level ++ text) left :=
  (blanks (isBlank level)).append strips

theorem flatMap (strips : ∀ element ∈ elements, Strips (write element) (writeLeft element)) :
    Strips (elements.flatMap write) (elements.flatMap writeLeft) := by
  induction elements with
  | nil =>
      exact nil
  | cons first rest ih =>
      rw [List.forall_mem_cons] at strips
      rw [List.flatMap_cons, List.flatMap_cons]
      exact strips.1.append (ih strips.2)

/-- Elements between brackets are left as the same elements on one line. -/
theorem bracketed {opening closing : Char}
    (isOpening : isJsonBlank opening = false ∧ opening ≠ '\x22')
    (isClosing : isJsonBlank closing = false ∧ closing ≠ '\x22')
    (isBlank : ∀ level, ∀ c ∈ line level, isJsonBlank c = true) (level other : Nat)
    (strips : ∀ element ∈ elements, Strips (write element) (writeLeft element)) :
    Strips (bracketed line level opening closing (elements.map write))
      (bracketed (fun _ => []) other opening closing (elements.map writeLeft)) := by
  cases elements with
  | nil =>
      have pair : Strips [opening, closing] [opening, closing] :=
        marks (by simp [isOpening, isClosing])
      exact pair
  | cons first rest =>
      rw [List.forall_mem_cons] at strips
      have closed : Strips (line level ++ [closing]) [closing] :=
        (marks (by simp [isClosing])).onNewLine isBlank level
      have more : Strips (rest.flatMap fun element => ',' :: (line (level + 1) ++ write element))
          (rest.flatMap fun element => ',' :: writeLeft element) :=
        flatMap fun element member =>
          ((strips.2 element member).onNewLine isBlank (level + 1)).mark rfl (by decide)
      have opened := ((strips.1.append (more.append closed)).onNewLine isBlank (level + 1)).mark
        isOpening.1 isOpening.2
      simpa [DatasetLineage.bracketed, List.flatMap_map] using opened

end Brackets

end Strips

/-- A layout with blanks at the start of lines and behind colons is left as the one without. -/
theorem WritesJson.strips {character : Char → List Char} {line : Nat → List Char}
    {gap : List Char} {write writeLeft : Nat → JsonValue → List Char}
    (writes : WritesJson character line (':' :: gap) write)
    (writesLeft : WritesJson character (fun _ => []) [':'] writeLeft)
    (blankLine : ∀ level, ∀ c ∈ line level, isJsonBlank c = true)
    (blankGap : ∀ c ∈ gap, isJsonBlank c = true) (value : JsonValue) :
    ∀ level other, Strips (write level value) (writeLeft other value) := by
  induction value using JsonValue.induction with
  | null =>
      intro level other
      rw [writes.null, writesLeft.null]
      exact .marks (by simp [isJsonBlank])
  | number n =>
      intro level other
      rw [writes.number, writesLeft.number]
      exact .jsonNumber n
  | text content =>
      intro level other
      rw [writes.text, writesLeft.text]
      exact .quoted writes.escapes content
  | list items ih =>
      intro level other
      rw [writes.list, writesLeft.list]
      exact .bracketed (by decide) (by decide) blankLine level other fun item member =>
        ih item member (level + 1) (other + 1)
  | record fields ih =>
      intro level other
      rw [writes.record, writesLeft.record]
      refine .bracketed (by decide) (by decide) blankLine level other fun field member => ?_
      have value := ih field member (level + 1) (other + 1)
      have colon : Strips (':' :: gap) [':'] := (Strips.blanks blankGap).mark rfl (by decide)
      exact ((Strips.quoted writes.escapes field.1).append colon).append value

namespace JsonValue

theorem isJsonBlank_of_mem_lineAt (level : Nat) : ∀ c ∈ lineAt level, isJsonBlank c = true :=
  List.forall_mem_cons.mpr ⟨rfl, fun _ member => List.eq_of_mem_replicate member ▸ rfl⟩

/-- The two layouts of a value differ in blanks outside of string literals. -/
theorem withoutLayout_render (value : JsonValue) :
    withoutLayout .outside (value.render true).toList = (value.render false).toList := by
  have stripped := writesJson_indented.strips writesJson_compact isJsonBlank_of_mem_lineAt
    (by simp [isJsonBlank]) value 0 0 []
  rw [List.append_nil] at stripped
  rw [render, if_pos rfl, String.toList_ofList, stripped, render, if_neg Bool.false_ne_true,
    String.toList_ofList]
  exact List.append_nil _

end JsonValue

end DatasetLineage
