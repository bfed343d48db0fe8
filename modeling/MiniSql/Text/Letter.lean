import MiniSql.Text.LetterRanges

namespace MiniSql.Text

/-- A character of the Unicode property White_Space. -/
def isBlank (c : Char) : Bool :=
  inRanges c.toNat [(0x9, 0xD), (0x20, 0x20), (0x85, 0x85), (0xA0, 0xA0), (0x1680, 0x1680),
    (0x2000, 0x200A), (0x2028, 0x2029), (0x202F, 0x202F), (0x205F, 0x205F), (0x3000, 0x3000)]

/-- A character of the general category Cc. -/
def isControl (c : Char) : Bool :=
  inRanges c.toNat [(0x0, 0x1F), (0x7F, 0x9F)]

def isAlphabetic (c : Char) : Bool :=
  inRanges c.toNat alphabeticRanges

def isAlphanumeric (c : Char) : Bool :=
  isAlphabetic c || inRanges c.toNat numericRanges

/-- The text without the blanks at its start. -/
def dropBlanks (cs : List Char) : List Char :=
  cs.dropWhile isBlank

/-- The text without the blanks at either end. -/
def trimBlanks (cs : List Char) : List Char :=
  (dropBlanks (dropBlanks cs).reverse).reverse

end MiniSql.Text
