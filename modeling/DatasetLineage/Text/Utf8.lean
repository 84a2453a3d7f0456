/-
Module: DatasetLineage.Text.Utf8
Purpose: Decoding of UTF-8. The decoder reads one byte at a time; what it holds between bytes is
  the open sequence, that is the value read so far, how many bytes are owed, and the bounds of the
  next one. The bounds rule out overlong forms, surrogates and values beyond U+10FFFF at the first
  byte that cannot continue. A sequence that breaks off stands for one unreadable character, and
  the byte that broke it is read afresh.
Main exports: Utf8.decode, Utf8.decodeStrict?, Utf8.decodeLossy
-/

namespace DatasetLineage.Text.Utf8

/-- A sequence that is still owed `owed + 1` bytes, the next one between `low` and `high`. -/
structure OpenSequence where
  value : Nat
  owed : Nat
  low : Nat
  high : Nat
deriving DecidableEq, Repr

/-- The decoder between bytes: the characters read, latest first, with `none` for an unreadable
    one, and the open sequence. -/
structure Decoder where
  read : List (Option Char) := []
  pending : Option OpenSequence := none
deriving DecidableEq, Repr

/-- Takes the first byte of a character. -/
def Decoder.first (read : List (Option Char)) (byte : Nat) : Decoder :=
  if byte < 0x80 then ⟨some (Char.ofNat byte) :: read, none⟩
  else if 0xC2 ≤ byte ∧ byte ≤ 0xDF then ⟨read, some ⟨byte - 0xC0, 0, 0x80, 0xBF⟩⟩
  else if byte = 0xE0 then ⟨read, some ⟨0, 1, 0xA0, 0xBF⟩⟩
  else if byte = 0xED then ⟨read, some ⟨0xD, 1, 0x80, 0x9F⟩⟩
  else if 0xE1 ≤ byte ∧ byte ≤ 0xEF then ⟨read, some ⟨byte - 0xE0, 1, 0x80, 0xBF⟩⟩
  else if byte = 0xF0 then ⟨read, some ⟨0, 2, 0x90, 0xBF⟩⟩
  else if 0xF1 ≤ byte ∧ byte ≤ 0xF3 then ⟨read, some ⟨byte - 0xF0, 2, 0x80, 0xBF⟩⟩
  else if byte = 0xF4 then ⟨read, some ⟨4, 2, 0x80, 0x8F⟩⟩
  else ⟨none :: read, none⟩

/-- Takes one byte. -/
def Decoder.step (d : Decoder) (byte : UInt8) : Decoder :=
  let b := byte.toNat
  match d.pending with
  | none => first d.read b
  | some s =>
    if s.low ≤ b ∧ b ≤ s.high then
      let value := s.value * 0x40 + (b - 0x80)
      match s.owed with
      | 0 => ⟨some (Char.ofNat value) :: d.read, none⟩
      | owed + 1 => ⟨d.read, some ⟨value, owed, 0x80, 0xBF⟩⟩
    else first (none :: d.read) b

/-- The characters of a byte sequence, `none` for each unreadable one. -/
def decode (bytes : List UInt8) : List (Option Char) :=
  let d := bytes.foldl Decoder.step (Decoder.mk [] none)
  match d.pending with
  | none => d.read.reverse
  | some _ => (none :: d.read).reverse

/-- The text of a byte sequence that is UTF-8 throughout. -/
def decodeStrict? (bytes : List UInt8) : Option String :=
  let chars := decode bytes
  if chars.all Option.isSome then some (String.ofList (chars.filterMap id)) else none

/-- The text of a byte sequence, with U+FFFD for each unreadable character. -/
def decodeLossy (bytes : List UInt8) : String :=
  String.ofList ((decode bytes).map (·.getD '\uFFFD'))

end DatasetLineage.Text.Utf8
