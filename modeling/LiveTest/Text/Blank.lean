import LiveTest.Text
/-!
The white space of Unicode, texts without it at their ends, and what separates words.
-/

namespace LiveTest.Text

/-- The characters that count as white space. -/
def isBlank (c : Char) : Bool :=
  let n := c.toNat
  (9 ≤ n && n ≤ 13) || n == 0x20 || n == 0x85 || n == 0xA0 || n == 0x1680 ||
    (0x2000 ≤ n && n ≤ 0x200A) || n == 0x2028 || n == 0x2029 || n == 0x202F || n == 0x205F ||
    n == 0x3000

/-- The text without white space at its ends. -/
def trim (cs : List Char) : List Char :=
  ((cs.dropWhile isBlank).reverse.dropWhile isBlank).reverse

/-- A blank or the end of a line, as they stand between the words of a command. -/
def isBreak (c : Char) : Bool := c = ' ' || c = '\n'

end LiveTest.Text
