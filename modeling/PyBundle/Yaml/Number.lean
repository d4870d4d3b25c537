/-!
# Texts that YAML reads as numbers

A plain scalar is read as a number if it is an integer in one of four radices, or a decimal fraction that
a binary floating-point number of 64 bits can hold, or infinite or no number by name.
-/

namespace PyBundle.Yaml

/-- The value of a digit in a radix. -/
def digitValue? (radix : Nat) (c : Char) : Option Nat :=
  let n := c.toNat
  let value? :=
    if 48 ≤ n && n ≤ 57 then some (n - 48)
    else if 97 ≤ n && n ≤ 122 then some (n - 87)
    else if 65 ≤ n && n ≤ 90 then some (n - 55)
    else none
  value?.filter (· < radix)

/-- The number that some digits are. -/
def digits? (radix : Nat) (cs : List Char) : Option Nat :=
  if cs.isEmpty then none
  else cs.foldlM (fun n c => (digitValue? radix c).map (radix * n + ·)) 0

/-- A text without a sign at its front. -/
def dropSign (cs : List Char) : List Char :=
  if cs.head? == some '-' || cs.head? == some '+' then cs.drop 1 else cs

/-- **Whether a text has the digits of a number but a zero too many at its front.** -/
def hasLeadingZero (cs : List Char) : Bool :=
  let body := dropSign cs
  1 < body.length && body.head? == some '0' && body.all (·.isDigit)

/-- Whether a text is an integer in a radix that a letter announces. Its width is 128 bits. -/
def isRadixInteger (cs : List Char) : Bool :=
  let fits (limit : Nat) (cs : List Char) : Bool :=
    match cs with
    | '0' :: 'x' :: cs => (digits? 16 cs).any (· < limit)
    | '0' :: 'o' :: cs => (digits? 8 cs).any (· < limit)
    | '0' :: 'b' :: cs => (digits? 2 cs).any (· < limit)
    | _ => false
  match cs with
  | '-' :: cs => fits (Nat.pow 2 127 + 1) cs
  | '+' :: cs => fits (Nat.pow 2 128) cs
  | cs => fits (Nat.pow 2 128) cs

/-- **Whether a decimal fraction is too large** to be held: `digits` times ten to the power of
`exponent`. What lies half way to the power of two beyond the largest number is too large. -/
def isTooLarge (digits : Nat) (exponent : Int) : Bool :=
  let limit := Nat.pow 2 1024 - Nat.pow 2 970
  if digits == 0 then false
  else if 400 < exponent then true
  else if 0 ≤ exponent then limit ≤ digits * Nat.pow 10 exponent.toNat
  else limit * Nat.pow 10 (min (-exponent).toNat (toString digits).length) ≤ digits

/-- The exponent that a text is, with its letter. No text is the exponent zero. -/
def exponent? : List Char → Option Int
  | [] => some 0
  | e :: cs =>
    if e == 'e' || e == 'E' then
      (digits? 10 (dropSign cs)).map fun n => if cs.head? == some '-' then -(n : Int) else n
    else none

/-- Whether a text without a sign is a decimal fraction that can be held. -/
def isDecimal (cs : List Char) : Bool :=
  let whole := cs.takeWhile (·.isDigit)
  let behind := cs.dropWhile (·.isDigit)
  let (fraction, rest) :=
    match behind with
    | '.' :: cs => (cs.takeWhile (·.isDigit), cs.dropWhile (·.isDigit))
    | cs => ([], cs)
  match digits? 10 (whole ++ fraction), exponent? rest with
  | some n, some e => !isTooLarge n (e - fraction.length)
  | _, _ => false

/-- **Whether a plain scalar is read as a number.** -/
def isNumber (s : String) : Bool :=
  let cs := s.toList
  if hasLeadingZero cs then false
  else
    isRadixInteger cs || isDecimal (dropSign cs) ||
      [".inf", ".Inf", ".INF", "+.inf", "+.Inf", "+.INF", "-.inf", "-.Inf", "-.INF",
        ".nan", ".NaN", ".NAN"].contains s

end PyBundle.Yaml
