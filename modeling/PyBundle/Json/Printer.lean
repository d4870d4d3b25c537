import PyBundle.Json.Value

/-!
# Writing JSON

A value is written compactly, without any blanks, or on several lines, where each level is indented by
two spaces.
-/

namespace PyBundle.Json

/-- A hexadecimal digit. -/
def hexDigit (n : Nat) : Char := if n < 10 then Char.ofNat (48 + n) else Char.ofNat (87 + n)

/-- **How a character is written in a string.** Quotes, backslashes and control characters are escaped. -/
def escapeChar (c : Char) : List Char :=
  match c with
  | '"' => ['\\', '"']
  | '\\' => ['\\', '\\']
  | '\x08' => ['\\', 'b']
  | '\x0c' => ['\\', 'f']
  | '\n' => ['\\', 'n']
  | '\x0d' => ['\\', 'r']
  | '\t' => ['\\', 't']
  | c =>
    if c.toNat < 32 then ['\\', 'u', '0', '0', hexDigit (c.toNat / 16), hexDigit (c.toNat % 16)] else [c]

/-- **How a string is written.** -/
def quote (s : String) : List Char := '"' :: s.toList.flatMap escapeChar ++ ['"']

/-- The decimal digits of a natural number. -/
def natChars (n : Nat) : List Char := (toString n).toList

/-- How an integer is written. -/
def intChars : Int → List Char
  | .ofNat n => natChars n
  | .negSucc n => '-' :: natChars (n + 1)

/-- How a value that has no parts is written. -/
def atomChars : Json → List Char
  | null => "null".toList
  | bool true => "true".toList
  | bool false => "false".toList
  | int n => intChars n
  | decimal text => text.toList
  | string s => quote s
  | array _ => "[]".toList
  | object _ => "\x7b\x7d".toList

/-! ## Compact -/

mutual
/-- A value without blanks, before a text. -/
def compactChars : Json → List Char → List Char
  | array (v :: vs), tail => '[' :: compactChars v (compactItems vs (']' :: tail))
  | object ((name, v) :: ms), tail =>
    '\x7b' :: quote name ++ ':' :: compactChars v (compactMembers ms ('\x7d' :: tail))
  | v, tail => atomChars v ++ tail
/-- Further items of an array, before a text. -/
def compactItems : List Json → List Char → List Char
  | [], tail => tail
  | v :: vs, tail => ',' :: compactChars v (compactItems vs tail)
/-- Further members of an object, before a text. -/
def compactMembers : List (String × Json) → List Char → List Char
  | [], tail => tail
  | (name, v) :: ms, tail => ',' :: quote name ++ ':' :: compactChars v (compactMembers ms tail)
end

/-- **A value without blanks.** -/
def compact (v : Json) : String := String.ofList (compactChars v [])

/-! ## On several lines -/

/-- A new line at some level. -/
def newLine (level : Nat) : List Char := '\n' :: List.replicate (2 * level) ' '

mutual
/-- A value at some level, before a text. -/
def prettyChars (level : Nat) : Json → List Char → List Char
  | array (v :: vs), tail =>
    '[' :: newLine (level + 1) ++ prettyChars (level + 1) v
      (prettyItems (level + 1) vs (newLine level ++ ']' :: tail))
  | object ((name, v) :: ms), tail =>
    '\x7b' :: newLine (level + 1) ++ quote name ++ ':' :: ' ' :: prettyChars (level + 1) v
      (prettyMembers (level + 1) ms (newLine level ++ '\x7d' :: tail))
  | v, tail => atomChars v ++ tail
/-- Further items of an array, each on a line, before a text. -/
def prettyItems (level : Nat) : List Json → List Char → List Char
  | [], tail => tail
  | v :: vs, tail => ',' :: newLine level ++ prettyChars level v (prettyItems level vs tail)
/-- Further members of an object, each on a line, before a text. -/
def prettyMembers (level : Nat) : List (String × Json) → List Char → List Char
  | [], tail => tail
  | (name, v) :: ms, tail =>
    ',' :: newLine level ++ quote name ++ ':' :: ' ' :: prettyChars level v (prettyMembers level ms tail)
end

/-- **A value on several lines.** -/
def pretty (v : Json) : String := String.ofList (prettyChars 0 v [])

end PyBundle.Json
