/-
Module: DatasetLineage.Text.Blank
Purpose: Blank characters, those with the Unicode property White_Space, and the removal of blanks
  from the end of a text.
Main exports: isBlank, trimEnd
-/
import DatasetLineage.Text.CodePoints

namespace DatasetLineage.Text

/-- The code points with the property White_Space. -/
def blanks : CodePoints :=
  [(0x09, 0x0D), (0x20, 0x20), (0x85, 0x85), (0xA0, 0xA0), (0x1680, 0x1680), (0x2000, 0x200A),
   (0x2028, 0x2029), (0x202F, 0x202F), (0x205F, 0x205F), (0x3000, 0x3000)]

/-- Whether a character is blank. -/
def isBlank (c : Char) : Bool := blanks.holds c.toNat

/-- A text without the blanks at its end. -/
def trimEnd (text : String) : String :=
  String.ofList (text.toList.reverse.dropWhile isBlank).reverse

end DatasetLineage.Text
