/-!
# Blanks and lines

White space is what has the Unicode property `White_Space`. A text is cut into lines at its line feeds,
and a carriage return before a line feed belongs to the line break.
-/

namespace PyBundle.Text

/-- **Whether a character is white space.** -/
def isBlank (c : Char) : Bool :=
  let n := c.toNat
  (9 ≤ n && n ≤ 13) || n == 0x20 || n == 0x85 || n == 0xA0 || n == 0x1680 ||
    (0x2000 ≤ n && n ≤ 0x200A) || n == 0x2028 || n == 0x2029 || n == 0x202F || n == 0x205F ||
    n == 0x3000

/-- **A text without the white space at its ends.** -/
def trim (cs : List Char) : List Char :=
  ((cs.dropWhile isBlank).reverse.dropWhile isBlank).reverse

/-- A line without the carriage return of its line break. -/
def dropReturn (cs : List Char) : List Char :=
  if cs.getLast? = some '\r' then cs.dropLast else cs

/-- **The lines of a text.** A text that ends with a line feed has no line behind it, and the last line
of another text keeps its carriage return. -/
def lines (cs : List Char) : List (List Char) :=
  let pieces := cs.splitOn '\n'
  pieces.dropLast.map dropReturn ++ (pieces.getLast?.toList.filter (· != []))

end PyBundle.Text
