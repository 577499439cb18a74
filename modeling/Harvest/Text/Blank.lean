/-! # Blank characters

Which characters count as white space, and how a text is trimmed of them. Every reader of the
library that skips or trims blanks uses `isBlank`, so the set is fixed once.
-/

namespace Harvest.Text

/-- White space in the sense of the Unicode property `White_Space`. -/
def isBlank (c : Char) : Bool :=
  let n := c.toNat
  (9 ≤ n && n ≤ 13) || n == 0x20 || n == 0x85 || n == 0xA0 || n == 0x1680
    || (0x2000 ≤ n && n ≤ 0x200A) || n == 0x2028 || n == 0x2029 || n == 0x202F
    || n == 0x205F || n == 0x3000

/-- Drops the blanks in front. -/
def skipBlanks (s : List Char) : List Char :=
  s.dropWhile isBlank

/-- Drops the blanks at both ends. -/
def trim (s : List Char) : List Char :=
  ((skipBlanks s).reverse.dropWhile isBlank).reverse

/-- Drops the blanks at both ends of a string. -/
def trimmed (s : String) : String :=
  String.ofList (trim s.toList)

end Harvest.Text
