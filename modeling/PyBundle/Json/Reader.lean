import PyBundle.Json.Value

/-!
# Reading JSON

Each reader takes what it reads from the front of a text and leaves the rest.
-/

namespace PyBundle.Json

/-- A text without the blanks at its front. -/
def skipBlanks (cs : List Char) : List Char :=
  cs.dropWhile fun c => c == ' ' || c == '\n' || c == '\t' || c == '\x0d'

/-! ## Strings -/

/-- The value of a hexadecimal digit. -/
def hexValue? (c : Char) : Option Nat :=
  let n := c.toNat
  if 48 ≤ n && n ≤ 57 then some (n - 48)
  else if 97 ≤ n && n ≤ 102 then some (n - 87)
  else if 65 ≤ n && n ≤ 70 then some (n - 55)
  else none

/-- The number that four hexadecimal digits are. -/
def unit? (a b c d : Char) : Option Nat := do
  return 4096 * (← hexValue? a) + 256 * (← hexValue? b) + 16 * (← hexValue? c) + (← hexValue? d)

/-- The character that a letter behind a backslash stands for. -/
def unescape? : Char → Option Char
  | '"' => some '"'
  | '\\' => some '\\'
  | '/' => some '/'
  | 'b' => some '\x08'
  | 'f' => some '\x0c'
  | 'n' => some '\n'
  | 'r' => some '\x0d'
  | 't' => some '\t'
  | _ => none

/-- The character of a unit, where a first half of a pair may wait for its second half. The answer is a
character or a first half that waits now. -/
def joinUnit? (half : Option Nat) (n : Nat) : Option (Char ⊕ Nat) :=
  match half with
  | some high =>
    if 0xDC00 ≤ n && n ≤ 0xDFFF then some (.inl (Char.ofNat (0x10000 + (high - 0xD800) * 1024 + (n - 0xDC00))))
    else none
  | none =>
    if 0xDC00 ≤ n && n ≤ 0xDFFF then none
    else if 0xD800 ≤ n && n ≤ 0xDBFF then some (.inr n)
    else some (.inl (Char.ofNat n))

/-- Reads a string behind its quote, after some characters in reverse. -/
def readString (half : Option Nat) (taken : List Char) : List Char → Option (String × List Char)
  | '"' :: rest => if half.isSome then none else some (String.ofList taken.reverse, rest)
  | '\\' :: 'u' :: a :: b :: c :: d :: rest =>
    match (unit? a b c d).bind (joinUnit? half) with
    | some (.inl c) => readString none (c :: taken) rest
    | some (.inr high) => readString (some high) taken rest
    | none => none
  | '\\' :: c :: rest =>
    if half.isSome then none
    else
      match unescape? c with
      | some c => readString none (c :: taken) rest
      | none => none
  | c :: rest => if half.isSome || c.toNat < 32 then none else readString none (c :: taken) rest
  | [] => none

/-! ## Numbers -/

/-- Whether a character belongs to a number. -/
def isNumberChar (c : Char) : Bool := c.isDigit || c == '-' || c == '+' || c == '.' || c == 'e' || c == 'E'

/-- Digits that are a number: one digit, or several of which the first is not zero. -/
def wholeNumber? (cs : List Char) : Option Nat :=
  if cs.isEmpty || !cs.all (·.isDigit) || (cs.length != 1 && cs.head? == some '0') then none
  else some (cs.foldl (fun n c => 10 * n + (c.toNat - 48)) 0)

/-- Whether a text is a fraction, an exponent or both. -/
def isFractionOrExponent (cs : List Char) : Bool :=
  let digits (cs : List Char) : Bool := !cs.isEmpty && cs.all (·.isDigit)
  let isExponent (cs : List Char) : Bool :=
    match cs with
    | e :: '+' :: cs => (e == 'e' || e == 'E') && digits cs
    | e :: '-' :: cs => (e == 'e' || e == 'E') && digits cs
    | e :: cs => (e == 'e' || e == 'E') && digits cs
    | [] => false
  match cs with
  | '.' :: cs =>
    let rest := cs.dropWhile (·.isDigit)
    digits (cs.takeWhile (·.isDigit)) && (rest.isEmpty || isExponent rest)
  | cs => isExponent cs

/-- **The number that a text is.** A negative zero is no integer. -/
def number? (cs : List Char) : Option Json :=
  let negative := cs.head? == some '-'
  let body := if negative then cs.drop 1 else cs
  let rest := body.dropWhile (·.isDigit)
  match wholeNumber? (body.takeWhile (·.isDigit)) with
  | none => none
  | some n =>
    if rest.isEmpty then
      some (if !negative then int n else if n == 0 then decimal "-0" else int (-n))
    else if isFractionOrExponent rest then some (decimal (String.ofList cs))
    else none

/-! ## Values -/

mutual
/-- Reads a value. The fuel bounds the length of the text. -/
def readValue : Nat → List Char → Option (Json × List Char)
  | 0, _ => none
  | fuel + 1, cs =>
    match skipBlanks cs with
    | '"' :: rest => (readString none [] rest).map fun (s, rest) => (string s, rest)
    | '[' :: rest =>
      match skipBlanks rest with
      | ']' :: rest => some (array [], rest)
      | rest => (readItems fuel rest).map fun (vs, rest) => (array vs, rest)
    | '\x7b' :: rest =>
      match skipBlanks rest with
      | '\x7d' :: rest => some (object [], rest)
      | rest => (readMembers fuel rest).map fun (ms, rest) => (object ms, rest)
    | 'n' :: 'u' :: 'l' :: 'l' :: rest => some (null, rest)
    | 't' :: 'r' :: 'u' :: 'e' :: rest => some (bool true, rest)
    | 'f' :: 'a' :: 'l' :: 's' :: 'e' :: rest => some (bool false, rest)
    | cs => (number? (cs.takeWhile isNumberChar)).map fun v => (v, cs.dropWhile isNumberChar)
/-- Reads items up to the end of an array. -/
def readItems : Nat → List Char → Option (List Json × List Char)
  | 0, _ => none
  | fuel + 1, cs =>
    match readValue fuel cs with
    | none => none
    | some (v, rest) =>
      match skipBlanks rest with
      | ',' :: rest => (readItems fuel rest).map fun (vs, rest) => (v :: vs, rest)
      | ']' :: rest => some ([v], rest)
      | _ => none
/-- Reads members up to the end of an object. -/
def readMembers : Nat → List Char → Option (List (String × Json) × List Char)
  | 0, _ => none
  | fuel + 1, cs =>
    match skipBlanks cs with
    | '"' :: rest =>
      match readString none [] rest with
      | none => none
      | some (name, rest) =>
        match skipBlanks rest with
        | ':' :: rest =>
          match readValue fuel rest with
          | none => none
          | some (v, rest) =>
            match skipBlanks rest with
            | ',' :: rest => (readMembers fuel rest).map fun (ms, rest) => ((name, v) :: ms, rest)
            | '\x7d' :: rest => some ([(name, v)], rest)
            | _ => none
        | _ => none
    | _ => none
end

/-- **The value that a text is,** apart from blanks around it. -/
def parse? (text : String) : Option Json :=
  match readValue (2 * text.length + 2) text.toList with
  | some (v, rest) => if (skipBlanks rest).isEmpty then some v else none
  | none => none

end PyBundle.Json
