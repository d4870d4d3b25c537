import PyBundle.Lexer.CharSet

/-!
# Source text

A source text as the lexer reads it: characters by position, and for each position the bytes and the
line breaks before it.
-/

namespace PyBundle.Lexer

/-- **A source text.** Position `i` stands before character `i`. -/
structure Source where
  chars : Array Char
  classes : Array CharClass
  /-- The bytes before each position, in UTF-8. -/
  bytesBefore : Array Nat
  /-- The line breaks before each position. -/
  breaksBefore : Array Nat
  deriving Inhabited

namespace Source

/-- The sums of a measure over the characters before each position. -/
def sums (measure : Char → Nat) (cs : List Char) : Array Nat :=
  (cs.foldl (fun (out, n) c => (out.push (n + measure c), n + measure c)) (#[0], 0)).1

def ofString (text : String) : Source :=
  let cs := text.toList
  { chars := cs.toArray
    classes := (cs.map CharClass.of).toArray
    bytesBefore := sums Char.utf8Size cs
    breaksBefore := sums (fun c => if c == '\n' then 1 else 0) cs }

def size (s : Source) : Nat := s.chars.size

/-- Whether a position is the end of the text. -/
def atEnd (s : Source) (i : Nat) : Bool := s.size ≤ i

/-- The character behind a position; at the end of the text, the NUL character. -/
def peek (s : Source) (i : Nat) : Char := s.chars.getD i '\x00'

/-- The bytes between two positions. -/
def bytes (s : Source) (i j : Nat) : Nat := s.bytesBefore.getD j 0 - s.bytesBefore.getD i 0

/-- The line breaks between two positions. -/
def breaks (s : Source) (i j : Nat) : Nat := s.breaksBefore.getD j 0 - s.breaksBefore.getD i 0

/-- The text between two positions. -/
def slice (s : Source) (i j : Nat) : String := String.ofList (s.chars.extract i j).toList

/-- The first position of the line of a position. -/
def lineStart (s : Source) : Nat → Nat
  | 0 => 0
  | i + 1 => if s.peek i == '\n' then i + 1 else s.lineStart i

/-- The line of a position, counted from 1. -/
def line (s : Source) (i : Nat) : Nat := s.breaksBefore.getD i 0 + 1

/-- The column of a position: the bytes before it in its line. -/
def column (s : Source) (i : Nat) : Nat := s.bytes (s.lineStart i) i

end Source

end PyBundle.Lexer
