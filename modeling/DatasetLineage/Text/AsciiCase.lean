/-
Module: DatasetLineage.Text.AsciiCase
Purpose: Agreement of two texts up to the case of the letters A to Z. Letters outside ASCII are
  never identified with one another: `É` and `é` differ here.
Main exports: foldAscii, sameUpToAsciiCase
-/

namespace DatasetLineage.Text

/-- A text with A to Z written as a to z and every other character kept. -/
def foldAscii (text : List Char) : List Char := text.map Char.toLower

/-- Whether two texts agree up to the case of A to Z. -/
def sameUpToAsciiCase (a b : String) : Bool := foldAscii a.toList == foldAscii b.toList

end DatasetLineage.Text
