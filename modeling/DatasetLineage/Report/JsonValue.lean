/-
Module: DatasetLineage.Report.JsonValue
Purpose: JSON values with their fields in a fixed order, and their two layouts: compact, without
  any blank outside string literals, and indented, with two blanks for each level and one value to
  a line. In string literals only quotation marks, backslashes and the control characters below
  U+0020 are escaped.
Main exports: JsonValue, JsonValue.induction, JsonValue.compact, JsonValue.indented, jsonString,
  EscapesJson, escapesJson_jsonCharacter, WritesJson, JsonValue.writesJson_compact,
  JsonValue.writesJson_indented
-/

namespace DatasetLineage

/-- A JSON value. Numbers are natural numbers. -/
inductive JsonValue where
  | null
  | number (n : Nat)
  | text (content : String)
  | list (items : List JsonValue)
  | record (fields : List (String × JsonValue))

/-- What holds of a list or a record if it holds of all values in it, and of the other values, holds
    of every value. -/
theorem JsonValue.induction {motive : JsonValue → Prop} (null : motive .null)
    (number : ∀ n, motive (.number n)) (text : ∀ content, motive (.text content))
    (list : ∀ items, (∀ item ∈ items, motive item) → motive (.list items))
    (record : ∀ fields, (∀ field ∈ fields, motive field.2) → motive (.record fields)) :
    ∀ value, motive value
  | .null => null
  | .number n => number n
  | .text content => text content
  | .list items => list items fun item _ => induction null number text list record item
  | .record fields =>
      record fields fun field member => by
        have inPair : sizeOf field.2 < sizeOf field := by
          cases field
          simp only [Prod.mk.sizeOf_spec]
          omega
        have inFields : sizeOf field < sizeOf fields := List.sizeOf_lt_of_mem member
        exact induction null number text list record field.2
termination_by value => sizeOf value

/-- One hexadecimal digit, in lower case. -/
def hexDigit (n : Nat) : Char := Char.ofNat (if n < 10 then 0x30 + n else 0x57 + n)

/-- A character as it is written in a string literal. -/
def jsonCharacter (c : Char) : List Char :=
  if c = '\x22' then ['\\', '\x22']
  else if c = '\\' then ['\\', '\\']
  else if c = '\x08' then ['\\', 'b']
  else if c = '\t' then ['\\', 't']
  else if c = '\n' then ['\\', 'n']
  else if c = '\x0c' then ['\\', 'f']
  else if c = '\r' then ['\\', 'r']
  else if c.toNat < 0x20 then
    ['\\', 'u', '0', '0', hexDigit (c.toNat / 16), hexDigit (c.toNat % 16)]
  else [c]

/-- A string literal with its characters written one by one. -/
def quoted (character : Char → List Char) (content : String) : List Char :=
  '\x22' :: content.toList.flatMap character ++ ['\x22']

/-- A string literal. -/
def jsonString : String → List Char := quoted jsonCharacter

/-- The digits of a number. -/
def jsonNumber (n : Nat) : List Char := Nat.toDigits 10 n

/-- The character that a letter behind a backslash stands for, if it is one of those that stand for
    one. -/
def escaped? : Char → Option Char
  | '\x22' => some '\x22'
  | '\\' => some '\\'
  | 'b' => some '\x08'
  | 't' => some '\t'
  | 'n' => some '\n'
  | 'f' => some '\x0c'
  | 'r' => some '\r'
  | _ => none

/-- What is taken for granted about the writing of characters in string literals.
    - `letter`: a character for which a letter stands is written as that letter behind a backslash.
    - `control`: another one below U+0020 is written by the digits of its code, in lower case.
    - `plain`: all others are written as they are. -/
structure EscapesJson (character : Char → List Char) : Prop where
  letter : ∀ c letter, escaped? letter = some c → character c = ['\\', letter]
  control : ∀ c, (∀ letter, escaped? letter ≠ some c) → c.toNat < 0x20 →
    character c = ['\\', 'u', '0', '0', hexDigit (c.toNat / 16), hexDigit (c.toNat % 16)]
  plain : ∀ c, (∀ letter, escaped? letter ≠ some c) → ¬ c.toNat < 0x20 → character c = [c]

/-- A character for which no letter stands is written by its code or as it is. -/
theorem jsonCharacter_of_noLetter {c : Char} (noLetter : ∀ letter, escaped? letter ≠ some c) :
    jsonCharacter c = if c.toNat < 0x20 then
      ['\\', 'u', '0', '0', hexDigit (c.toNat / 16), hexDigit (c.toNat % 16)] else [c] := by
  have different (letter : Char) {special : Char} (stands : escaped? letter = some special) :
      c ≠ special := by
    rintro rfl
    exact noLetter letter stands
  rw [jsonCharacter, if_neg (different '\x22' rfl), if_neg (different '\\' rfl),
    if_neg (different 'b' rfl), if_neg (different 't' rfl), if_neg (different 'n' rfl),
    if_neg (different 'f' rfl), if_neg (different 'r' rfl)]

theorem escapesJson_jsonCharacter : EscapesJson jsonCharacter where
  letter c letter stands := by
    unfold escaped? at stands
    split at stands <;> cases stands <;> rfl
  control c noLetter below := by rw [jsonCharacter_of_noLetter noLetter, if_pos below]
  plain c noLetter notBelow := by rw [jsonCharacter_of_noLetter noLetter, if_neg notBelow]

/-- Elements between brackets at a level, with commas between them. What starts a line stands in
    front of each element, one level deeper, and in front of the closing bracket. -/
def bracketed (line : Nat → List Char) (level : Nat) (opening closing : Char) :
    List (List Char) → List Char
  | [] => [opening, closing]
  | first :: rest =>
    opening :: line (level + 1) ++ first
      ++ rest.flatMap (fun element => ',' :: line (level + 1) ++ element) ++ line level ++ [closing]

/-- What is taken for granted about the layout of values, with what starts a line at a level and
    what parts a key from its value.
    - `escapes`: the characters of literals are written as they should be.
    - `null`, `number`, `text`: these values are written alike at every level.
    - `list`: the items stand between square brackets, one level deeper.
    - `record`: so do the fields between braces, each with its key in front of its value. -/
structure WritesJson (character : Char → List Char) (line : Nat → List Char) (colon : List Char)
    (write : Nat → JsonValue → List Char) : Prop where
  escapes : EscapesJson character
  null : ∀ level, write level .null = ['n', 'u', 'l', 'l']
  number : ∀ level n, write level (.number n) = jsonNumber n
  text : ∀ level content, write level (.text content) = quoted character content
  list : ∀ level items, write level (.list items) =
    bracketed line level '[' ']' (items.map (write (level + 1)))
  record : ∀ level fields, write level (.record fields) =
    bracketed line level '\x7b' '\x7d' (fields.map fun (key, value) =>
      quoted character key ++ colon ++ write (level + 1) value)

namespace JsonValue

/-- A text, or null if there is none. -/
def optionalText : Option String → JsonValue
  | some content => text content
  | none => null

mutual

/-- The compact layout of a value. -/
def compact : JsonValue → List Char
  | null => ['n', 'u', 'l', 'l']
  | number n => jsonNumber n
  | text content => jsonString content
  | list items => '[' :: compactItems items ++ [']']
  | record fields => '\x7b' :: compactFields fields ++ ['\x7d']

/-- The items of a list, with commas between them. -/
def compactItems : List JsonValue → List Char
  | [] => []
  | item :: rest => compact item ++ compactMoreItems rest

/-- The items behind the first one, each behind a comma. -/
def compactMoreItems : List JsonValue → List Char
  | [] => []
  | item :: rest => ',' :: compact item ++ compactMoreItems rest

/-- The fields of a record, with commas between them. -/
def compactFields : List (String × JsonValue) → List Char
  | [] => []
  | (key, value) :: rest => jsonString key ++ ':' :: compact value ++ compactMoreFields rest

/-- The fields behind the first one, each behind a comma. -/
def compactMoreFields : List (String × JsonValue) → List Char
  | [] => []
  | (key, value) :: rest =>
    ',' :: jsonString key ++ ':' :: compact value ++ compactMoreFields rest

end

/-- A line break and the blanks at the start of a line at a level. -/
def lineAt (level : Nat) : List Char := '\n' :: List.replicate (2 * level) ' '

mutual

/-- The indented layout of a value that stands at a level. -/
def indented (level : Nat) : JsonValue → List Char
  | null => ['n', 'u', 'l', 'l']
  | number n => jsonNumber n
  | text content => jsonString content
  | list [] => ['[', ']']
  | list (item :: rest) =>
    '[' :: lineAt (level + 1) ++ indented (level + 1) item ++ indentedItems (level + 1) rest
      ++ lineAt level ++ [']']
  | record [] => ['\x7b', '\x7d']
  | record ((key, value) :: rest) =>
    '\x7b' :: lineAt (level + 1) ++ jsonString key ++ ':' :: ' ' :: indented (level + 1) value
      ++ indentedFields (level + 1) rest ++ lineAt level ++ ['\x7d']

/-- The items behind the first one of a list, each behind a comma and on a line of its own. -/
def indentedItems (level : Nat) : List JsonValue → List Char
  | [] => []
  | item :: rest => ',' :: lineAt level ++ indented level item ++ indentedItems level rest

/-- The fields behind the first one of a record, each behind a comma and on a line of its own. -/
def indentedFields (level : Nat) : List (String × JsonValue) → List Char
  | [] => []
  | (key, value) :: rest =>
    ',' :: lineAt level ++ jsonString key ++ ':' :: ' ' :: indented level value
      ++ indentedFields level rest

end

/-! ### Both layouts are written as they should be -/

section Layouts

theorem compactMoreItems_eq (items : List JsonValue) :
    compactMoreItems items = (items.map compact).flatMap fun element => [','] ++ element := by
  induction items with
  | nil =>
      rw [compactMoreItems, List.map_nil, List.flatMap_nil]
  | cons item rest ih =>
      rw [compactMoreItems, ih, List.map_cons, List.flatMap_cons]
      rfl

theorem compactMoreFields_eq (fields : List (String × JsonValue)) :
    compactMoreFields fields =
      (fields.map fun (key, value) => jsonString key ++ [':'] ++ compact value).flatMap
        fun element => [','] ++ element := by
  induction fields with
  | nil =>
      rw [compactMoreFields, List.map_nil, List.flatMap_nil]
  | cons field rest ih =>
      rw [compactMoreFields, ih, List.map_cons, List.flatMap_cons]
      simp

theorem writesJson_compact : WritesJson jsonCharacter (fun _ => []) [':'] fun _ => compact where
  escapes := escapesJson_jsonCharacter
  null _ := by rw [compact]
  number _ n := by rw [compact]
  text _ content := by rw [compact, jsonString]
  list _ items := by
    cases items with
    | nil =>
        rw [compact, compactItems]
        rfl
    | cons item rest =>
        rw [compact, compactItems, compactMoreItems_eq, List.map_cons, bracketed]
        simp
  record _ fields := by
    cases fields with
    | nil =>
        rw [compact, compactFields]
        rfl
    | cons field rest =>
        rw [compact, compactFields, compactMoreFields_eq, List.map_cons, bracketed]
        simp [jsonString]

theorem indentedItems_eq (level : Nat) (items : List JsonValue) :
    indentedItems level items =
      (items.map (indented level)).flatMap fun element => ',' :: lineAt level ++ element := by
  induction items with
  | nil =>
      rw [indentedItems, List.map_nil, List.flatMap_nil]
  | cons item rest ih =>
      rw [indentedItems, ih, List.map_cons, List.flatMap_cons]

theorem indentedFields_eq (level : Nat) (fields : List (String × JsonValue)) :
    indentedFields level fields =
      (fields.map fun (key, value) => jsonString key ++ [':', ' '] ++ indented level value).flatMap
        fun element => ',' :: lineAt level ++ element := by
  induction fields with
  | nil =>
      rw [indentedFields, List.map_nil, List.flatMap_nil]
  | cons field rest ih =>
      rw [indentedFields, ih, List.map_cons, List.flatMap_cons]
      simp

theorem writesJson_indented : WritesJson jsonCharacter lineAt [':', ' '] indented where
  escapes := escapesJson_jsonCharacter
  null _ := by rw [indented]
  number _ n := by rw [indented]
  text _ content := by rw [indented, jsonString]
  list level items := by
    cases items with
    | nil =>
        rw [indented]
        rfl
    | cons item rest =>
        rw [indented, indentedItems_eq, List.map_cons, bracketed]
  record level fields := by
    cases fields with
    | nil =>
        rw [indented]
        rfl
    | cons field rest =>
        rw [indented, indentedFields_eq, List.map_cons, bracketed]
        simp [jsonString]

end Layouts

/-- The text of a value in one of the two layouts. -/
def render (pretty : Bool) (value : JsonValue) : String :=
  String.ofList (if pretty then value.indented 0 else value.compact)

end JsonValue

end DatasetLineage
