/-! Blank characters, the members of Unicode's White_Space property, and trimming by them.
-/

namespace RowFormula.Text

/-- The blank characters, as inclusive ranges of code points in ascending order. -/
def blankRanges : List (Nat × Nat) :=
  [(0x09, 0x0D), (0x20, 0x20), (0x85, 0x85), (0xA0, 0xA0), (0x1680, 0x1680),
   (0x2000, 0x200A), (0x2028, 0x2029), (0x202F, 0x202F), (0x205F, 0x205F),
   (0x3000, 0x3000)]

/-- Whether a character lies in one of the blank ranges. -/
def isBlank (c : Char) : Bool :=
  blankRanges.any fun range => range.1 ≤ c.toNat && c.toNat ≤ range.2

def skipBlanks (text : List Char) : List Char :=
  text.dropWhile isBlank

/-- The text between its leading and its trailing blanks. -/
def trimmed (text : List Char) : List Char :=
  (skipBlanks (skipBlanks text).reverse).reverse

/-- A character with an ASCII letter raised to upper case; every other character is kept.
-/
def upperAscii (c : Char) : Char :=
  if 'a' ≤ c && c ≤ 'z' then Char.ofNat (c.toNat - 32) else c

end RowFormula.Text
