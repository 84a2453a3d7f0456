/-
Module: DatasetLineage.Settings.Lexeme
Purpose: The words of a settings file, which is written in TOML. Lines end with a line feed, which
  a carriage return may precede. Blanks and comments part words and are dropped. A string has one
  of four forms: in quotation marks with escapes, or in apostrophes without, and each on one line
  or, between tripled delimiters, on several.
Main exports: Lexeme, Lexemes.step, Lexeme.ofText?
-/

namespace DatasetLineage.Settings

/-- A word of a settings file.
    - `word` is an unquoted key, a number or a truth value.
    - `text` is a string; `block` tells whether it was written between tripled delimiters. -/
inductive Lexeme where
  | word (chars : List Char)
  | text (chars : List Char) (block : Bool)
  | equals
  | comma
  | opening
  | closing
  | lineEnd
deriving DecidableEq, Repr

/-- The two delimiters of strings. Escapes are undone between quotation marks only. -/
inductive Quote where
  | basic
  | plain
deriving DecidableEq, Repr

/-- The delimiter itself. -/
def Quote.char : Quote → Char
  | basic => '\x22'
  | plain => '\x27'

/-- Where in a settings file the next character stands, with what was read latest first.
    - `opened` is behind the first or the second of the delimiters that open a string.
    - `line` and `block` are in a string; `run` counts the delimiters read last in a block.
    - `escape` is behind a backslash, `code` in the digits of a code point.
    - `fold` is behind a backslash that ends a line, on that line or, once `broken`, below it. -/
inductive LexemeMode where
  | between
  | comment
  | word (chars : List Char)
  | opened (quote : Quote) (second : Bool)
  | line (quote : Quote) (chars : List Char)
  | blockStart (quote : Quote)
  | block (quote : Quote) (chars : List Char) (run : Nat)
  | escape (block : Bool) (chars : List Char)
  | code (block : Bool) (chars : List Char) (digitsLeft value : Nat)
  | fold (broken : Bool) (chars : List Char)
deriving DecidableEq, Repr

/-- Lexemes that have been read, latest first, and the place of the next character. -/
structure Lexemes where
  read : List Lexeme
  mode : LexemeMode
deriving DecidableEq, Repr

/-- Whether a word can hold the character. -/
def isWordCharacter (c : Char) : Bool := c.isAlphanum || c == '_' || c == '-' || c == '+'

/-- Whether a comment, or a string on its line, can hold the character: all but control characters
    other than the tabulator. -/
def isPrintable (c : Char) : Bool := c == '\t' || (0x20 ≤ c.toNat && c != '\x7f')

/-- The value of a hexadecimal digit. -/
def hexValue? (c : Char) : Option Nat :=
  if '0' ≤ c ∧ c ≤ '9' then some (c.toNat - '0'.toNat)
  else if 'a' ≤ c ∧ c ≤ 'f' then some (c.toNat - 'a'.toNat + 10)
  else if 'A' ≤ c ∧ c ≤ 'F' then some (c.toNat - 'A'.toNat + 10)
  else none

/-- The character that a letter behind a backslash stands for. -/
def escaped? : Char → Option Char
  | 'b' => some '\x08'
  | 't' => some '\t'
  | 'n' => some '\n'
  | 'f' => some '\x0c'
  | 'r' => some '\r'
  | '\x22' => some '\x22'
  | '\\' => some '\\'
  | _ => none

/-- The character with a code point, unless that is a surrogate or too large. -/
def character? (value : Nat) : Option Char :=
  if h : value.isValidChar then some (Char.ofNatAux value h) else none

/-- The mode in which a string goes on. -/
def stringMode (block : Bool) (chars : List Char) : LexemeMode :=
  if block then .block .basic chars 0 else .line .basic chars

/-- A string that ends. -/
def textLexeme (chars : List Char) (block : Bool) : Lexeme := .text chars.reverse block

namespace Lexemes

/-- A character outside words, strings and comments. -/
def stepBetween (read : List Lexeme) (c : Char) : Option Lexemes :=
  if c = ' ' ∨ c = '\t' then some ⟨read, .between⟩
  else if c = '\n' then some ⟨.lineEnd :: read, .between⟩
  else if c = '#' then some ⟨read, .comment⟩
  else if c = '=' then some ⟨.equals :: read, .between⟩
  else if c = ',' then some ⟨.comma :: read, .between⟩
  else if c = '[' then some ⟨.opening :: read, .between⟩
  else if c = ']' then some ⟨.closing :: read, .between⟩
  else if c = Quote.basic.char then some ⟨read, .opened .basic false⟩
  else if c = Quote.plain.char then some ⟨read, .opened .plain false⟩
  else if isWordCharacter c then some ⟨read, .word [c]⟩
  else none

/-- A character in a string on one line. -/
def stepLine (read : List Lexeme) (quote : Quote) (chars : List Char) (c : Char) :
    Option Lexemes :=
  if c = quote.char then some ⟨textLexeme chars false :: read, .between⟩
  else if c = '\\' ∧ quote = .basic then some ⟨read, .escape false chars⟩
  else if isPrintable c then some ⟨read, .line quote (c :: chars)⟩
  else none

/-- A character in a string between tripled delimiters. Three delimiters end the string; one or two
    more before them belong to it. -/
def stepBlock (read : List Lexeme) (quote : Quote) (chars : List Char) (run : Nat) (c : Char) :
    Option Lexemes :=
  if c = quote.char then
    if run < 5 then some ⟨read, .block quote chars (run + 1)⟩ else none
  else if 3 ≤ run then
    stepBetween (textLexeme (List.replicate (run - 3) quote.char ++ chars) true :: read) c
  else
    let chars := List.replicate run quote.char ++ chars
    if c = '\\' ∧ quote = .basic then some ⟨read, .escape true chars⟩
    else if isPrintable c ∨ c = '\n' then some ⟨read, .block quote (c :: chars) 0⟩
    else none

/-- A character behind a backslash. -/
def stepEscape (read : List Lexeme) (block : Bool) (chars : List Char) (c : Char) :
    Option Lexemes :=
  match escaped? c with
  | some escaped => some ⟨read, stringMode block (escaped :: chars)⟩
  | none =>
    if c = 'u' then some ⟨read, .code block chars 4 0⟩
    else if c = 'U' then some ⟨read, .code block chars 8 0⟩
    else if block ∧ (c = ' ' ∨ c = '\t') then some ⟨read, .fold false chars⟩
    else if block ∧ c = '\n' then some ⟨read, .fold true chars⟩
    else none

/-- A digit of a code point. -/
def stepCode (read : List Lexeme) (block : Bool) (chars : List Char) (digitsLeft value : Nat)
    (c : Char) : Option Lexemes :=
  match hexValue? c with
  | none => none
  | some digit =>
    let value := value * 16 + digit
    if 1 < digitsLeft then some ⟨read, .code block chars (digitsLeft - 1) value⟩
    else (character? value).map fun coded => ⟨read, stringMode block (coded :: chars)⟩

/-- One more character; there is no result if it cannot stand here. -/
def step (lexemes : Lexemes) (c : Char) : Option Lexemes :=
  let read := lexemes.read
  match lexemes.mode with
  | .between => stepBetween read c
  | .comment =>
    if c = '\n' then some ⟨.lineEnd :: read, .between⟩
    else if isPrintable c then some ⟨read, .comment⟩
    else none
  | .word chars =>
    if isWordCharacter c then some ⟨read, .word (c :: chars)⟩
    else stepBetween (.word chars.reverse :: read) c
  | .opened quote false =>
    if c = quote.char then some ⟨read, .opened quote true⟩ else stepLine read quote [] c
  | .opened quote true =>
    if c = quote.char then some ⟨read, .blockStart quote⟩
    else stepBetween (textLexeme [] false :: read) c
  | .line quote chars => stepLine read quote chars c
  | .blockStart quote =>
    if c = '\n' then some ⟨read, .block quote [] 0⟩ else stepBlock read quote [] 0 c
  | .block quote chars run => stepBlock read quote chars run c
  | .escape block chars => stepEscape read block chars c
  | .code block chars digitsLeft value => stepCode read block chars digitsLeft value c
  | .fold broken chars =>
    if c = '\n' then some ⟨read, .fold true chars⟩
    else if c = ' ' ∨ c = '\t' then some ⟨read, .fold broken chars⟩
    else if broken then stepBlock read .basic chars 0 c
    else none

/-- The lexemes, in order, if the text may end here. -/
def finish? (lexemes : Lexemes) : Option (List Lexeme) :=
  match lexemes.mode with
  | .between | .comment => some lexemes.read.reverse
  | .word chars => some (.word chars.reverse :: lexemes.read).reverse
  | .opened _ true => some (textLexeme [] false :: lexemes.read).reverse
  | .block quote chars run =>
    if 3 ≤ run then
      some (textLexeme (List.replicate (run - 3) quote.char ++ chars) true
        :: lexemes.read).reverse
    else none
  | _ => none

end Lexemes

/-- A text in which every carriage return before a line feed is dropped. -/
def dropCarriageReturns : List Char → List Char
  | [] => []
  | '\r' :: '\n' :: rest => '\n' :: dropCarriageReturns rest
  | c :: rest => c :: dropCarriageReturns rest

/-- The lexemes of a settings file, which may begin with a byte order mark. -/
def Lexeme.ofText? (text : String) : Option (List Lexeme) :=
  let chars := match text.toList with
    | '\uFEFF' :: rest => rest
    | chars => chars
  ((dropCarriageReturns chars).foldlM Lexemes.step ⟨[], .between⟩).bind Lexemes.finish?

end DatasetLineage.Settings
