import PyBundle.Text.Identifier

/-!
# Sets of characters

The lexer tells apart each ASCII character and four classes of others. A set of characters is then a
set of 132 classes, kept as a bit mask, so that two sets can be compared, intersected and subtracted.
-/

namespace PyBundle.Lexer

/-- **A class of characters,** as far as tokens distinguish them: below 128 the ASCII character of
that code, above it one of the four classes that follow. -/
abbrev CharClass := Nat

namespace CharClass

/-- The class of the other characters that start an identifier. -/
def identifierStart : CharClass := 128

/-- The class of the other characters that only continue one. -/
def identifierContinue : CharClass := 129

/-- The class of the blanks without width: two spaces that join and the byte order mark. -/
def zeroWidth : CharClass := 130

/-- The class of all other characters. -/
def other : CharClass := 131

/-- How many classes there are. -/
def count : Nat := 132

/-- The class of a character. -/
def of (c : Char) : CharClass :=
  if c.toNat < 128 then c.toNat
  else if Text.isIdentifierStart c then identifierStart
  else if Text.isIdentifierContinue c then identifierContinue
  else if c == '\u200b' || c == '\u2060' || c == '\ufeff' then zeroWidth
  else other

end CharClass

/-- **A set of characters:** bit `k` of the mask says whether class `k` belongs to it. -/
structure CharSet where
  mask : Nat
  deriving BEq, DecidableEq, Hashable, Repr, Inhabited

namespace CharSet

def empty : CharSet := ⟨0⟩

def isEmpty (s : CharSet) : Bool := s.mask == 0

def contains (s : CharSet) (k : CharClass) : Bool := s.mask.testBit k

def union (s t : CharSet) : CharSet := ⟨s.mask ||| t.mask⟩

def inter (s t : CharSet) : CharSet := ⟨s.mask &&& t.mask⟩

/-- The classes of `s` that are not in `t`. -/
def diff (s t : CharSet) : CharSet := ⟨s.mask ^^^ (s.mask &&& t.mask)⟩

def ofClass (k : CharClass) : CharSet := ⟨1 <<< k⟩

/-- The set of some characters. -/
def ofString (s : String) : CharSet :=
  s.toList.foldl (fun t c => t.union (ofClass (CharClass.of c))) empty

/-- The ASCII characters from one to another. -/
def range (first last : Char) : CharSet :=
  (List.range (last.toNat + 1 - first.toNat)).foldl
    (fun t k => t.union (ofClass (first.toNat + k))) empty

/-- Every character but the NUL character, which stands for the end of the text. -/
def all : CharSet := ⟨1 <<< CharClass.count - 2⟩

def digits : CharSet := range '0' '9'

def hexDigits : CharSet := digits.union ((range 'a' 'f').union (range 'A' 'F'))

/-- The characters that start an identifier. -/
def wordStart : CharSet :=
  ((range 'a' 'z').union (range 'A' 'Z')).union
    ((ofString "_").union (ofClass CharClass.identifierStart))

/-- The characters that continue an identifier. -/
def wordContinue : CharSet :=
  wordStart.union (digits.union (ofClass CharClass.identifierContinue))

/-- **The characters that separate tokens:** white space of ASCII and the blanks without width. -/
def separators : CharSet :=
  (ofString " \t\r\n\x0b\x0c").union (ofClass CharClass.zeroWidth)

end CharSet

end PyBundle.Lexer
