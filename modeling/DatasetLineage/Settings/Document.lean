/-
Module: DatasetLineage.Settings.Document
Purpose: The lines of a settings file: keys with values, one to a line, where a value is a truth
  value, a natural number or a list of strings. The file may hold nothing else, since no setting
  is a table, a date, a fraction or a negative number.
Main exports: SettingValue, wordValue?, Document.step, entries?
-/
import DatasetLineage.Settings.Lexeme

namespace DatasetLineage.Settings

/-- The value of a setting. -/
inductive SettingValue where
  | flag (value : Bool)
  | number (value : Nat)
  | texts (values : List String)
deriving DecidableEq, Repr

/-- The number that digits stand for in a base. Single underscores may stand between digits. -/
def digitsValue? (base value : Nat) (behindDigit : Bool) : List Char → Option Nat
  | [] => if behindDigit then some value else none
  | '_' :: rest => if behindDigit then digitsValue? base value false rest else none
  | c :: rest =>
    match hexValue? c with
    | some digit =>
      if digit < base then digitsValue? base (value * base + digit) true rest else none
    | none => none

/-- The number that decimal digits stand for; only zero itself begins with a zero. -/
def decimal? : List Char → Option Nat
  | ['0'] => some 0
  | '0' :: _ => none
  | digits => digitsValue? 10 0 false digits

/-- The number that a word stands for: decimal with an optional sign, or hexadecimal, octal or
    binary without one. Of the negative numbers only minus zero is one. -/
def number? : List Char → Option Nat
  | '0' :: 'x' :: digits => digitsValue? 16 0 false digits
  | '0' :: 'o' :: digits => digitsValue? 8 0 false digits
  | '0' :: 'b' :: digits => digitsValue? 2 0 false digits
  | '+' :: digits => decimal? digits
  | '-' :: digits => if decimal? digits = some 0 then some 0 else none
  | digits => decimal? digits

/-- The value that a word stands for. A number has to be below 2 to the power of 63. -/
def wordValue? (word : List Char) : Option SettingValue :=
  if word = ['t', 'r', 'u', 'e'] then some (.flag true)
  else if word = ['f', 'a', 'l', 's', 'e'] then some (.flag false)
  else match number? word with
    | some n => if n < 0x8000000000000000 then some (.number n) else none
    | none => none

/-- The key that a lexeme is: an unquoted one without a plus sign, or a string on one line. -/
def Lexeme.key? : Lexeme → Option String
  | word chars => if chars.contains '+' then none else some (String.ofList chars)
  | text chars false => some (String.ofList chars)
  | _ => none

/-- Where in a settings file the next lexeme stands. In a list, `values` holds its strings, latest
    first. -/
inductive DocumentPlace where
  | lineStart
  | behindKey (key : String)
  | behindEquals (key : String)
  | behindValue
  | item (key : String) (values : List String)
  | behindItem (key : String) (values : List String)
deriving DecidableEq, Repr

/-- A settings file up to some lexeme: its entries, latest first, and the place behind them. -/
structure Document where
  entries : List (String × SettingValue)
  place : DocumentPlace
deriving DecidableEq, Repr

/-- One more lexeme; there is no result if it cannot stand here. -/
def Document.step (document : Document) (lexeme : Lexeme) : Option Document :=
  let entries := document.entries
  match document.place, lexeme with
  | .lineStart, .lineEnd => some document
  | .lineStart, lexeme => lexeme.key?.map fun key => ⟨entries, .behindKey key⟩
  | .behindKey key, .equals => some ⟨entries, .behindEquals key⟩
  | .behindEquals key, .word word =>
    (wordValue? word).map fun value => ⟨(key, value) :: entries, .behindValue⟩
  | .behindEquals key, .opening => some ⟨entries, .item key []⟩
  | .behindValue, .lineEnd => some ⟨entries, .lineStart⟩
  | .item _ _, .lineEnd => some document
  | .item key values, .text chars _ =>
    some ⟨entries, .behindItem key (String.ofList chars :: values)⟩
  | .item key values, .closing => some ⟨(key, .texts values.reverse) :: entries, .behindValue⟩
  | .behindItem _ _, .lineEnd => some document
  | .behindItem key values, .comma => some ⟨entries, .item key values⟩
  | .behindItem key values, .closing =>
    some ⟨(key, .texts values.reverse) :: entries, .behindValue⟩
  | _, _ => none

/-- The entries of a settings file, in order. -/
def entries? (text : String) : Option (List (String × SettingValue)) := do
  let lexemes ← Lexeme.ofText? text
  let document ← lexemes.foldlM Document.step ⟨[], .lineStart⟩
  match document.place with
  | .lineStart | .behindValue => some document.entries.reverse
  | _ => none

end DatasetLineage.Settings
