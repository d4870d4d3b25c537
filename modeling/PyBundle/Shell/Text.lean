import PyBundle.Text.Lowercase

/-!
# What `echo` and `printf` write
-/

namespace PyBundle.Shell

/-- The bytes of a text. -/
def bytesOf (s : String) : List UInt8 := s.toUTF8.toList

/-- Whether a character is an octal digit. -/
def isOctal (c : Char) : Bool := '0'.toNat ≤ c.toNat && c.toNat ≤ '7'.toNat

/-- The byte of some octal digits. -/
def octalByte (digits : List Char) : UInt8 :=
  UInt8.ofNat (digits.foldl (fun n c => 8 * n + (c.toNat - '0'.toNat)) 0)

/-- The byte that a letter behind a backslash stands for. -/
def escapedByte? : Char → Option UInt8
  | 'a' => some 7
  | 'b' => some 8
  | 't' => some 9
  | 'n' => some 10
  | 'v' => some 11
  | 'f' => some 12
  | 'r' => some 13
  | '\\' => some 92
  | _ => none

/-- **A text without its escapes,** and whether it goes on to its end. An octal number follows a zero or,
where a format is read, stands by itself. The count skips what has been read. -/
def unescape (inFormat : Bool) : Nat → List Char → List UInt8 × Bool
  | _, [] => ([], true)
  | skip + 1, _ :: cs => unescape inFormat skip cs
  | 0, '\\' :: c :: cs =>
    let digits := (cs.take (if inFormat then 2 else 3)).takeWhile isOctal
    if !inFormat && c == 'c' then ([], false)
    else if c == '0' || (inFormat && isOctal c) then
      let (bytes, whole) := unescape inFormat (digits.length + 1) (c :: cs)
      (octalByte (c :: digits) :: bytes, whole)
    else
      let (bytes, whole) := unescape inFormat 1 (c :: cs)
      match escapedByte? c with
      | some b => (b :: bytes, whole)
      | none => if inFormat && c == '"' then (34 :: bytes, whole) else (92 :: bytesOf c.toString ++ bytes, whole)
  | 0, c :: cs =>
    let (bytes, whole) := unescape inFormat 0 cs
    (bytesOf c.toString ++ bytes, whole)

/-- **What `echo` writes.** -/
def echoed (arguments : List String) : List UInt8 :=
  let (bare, arguments) := if arguments.head? == some "-n" then (true, arguments.drop 1) else (false, arguments)
  let (bytes, whole) := unescape false 0 (" ".intercalate arguments).toList
  if bare || !whole then bytes else bytes ++ [10]

/-- The digits at the front of a number, or a zero. -/
def numberText (s : String) : String :=
  let cs := s.toList
  let negative := cs.head? == some '-'
  let digits := ((if negative then cs.drop 1 else cs).takeWhile (·.isDigit)).dropWhile (· == '0')
  if digits.isEmpty then "0" else String.ofList (if negative then '-' :: digits else digits)

/-- What a conversion writes for an argument. -/
def converted (conversion : Char) (argument : Option String) : List UInt8 :=
  match conversion with
  | 'd' => bytesOf (numberText (argument.getD ""))
  | 'i' => bytesOf (numberText (argument.getD ""))
  | 'b' => (unescape false 0 (argument.getD "").toList).1
  | 'c' => (bytesOf (argument.getD "")).take 1
  | _ => bytesOf (argument.getD "")

/-- What a format writes, and the arguments that it leaves. -/
def formatted : List Char → List String → List UInt8 × List String
  | [], arguments => ([], arguments)
  | '%' :: '%' :: cs, arguments =>
    let (bytes, arguments) := formatted cs arguments
    (37 :: bytes, arguments)
  | '%' :: c :: cs, arguments =>
    let (bytes, left) := formatted cs (arguments.drop 1)
    (converted c arguments.head? ++ bytes, left)
  | '\\' :: c :: cs, arguments =>
    let digits := if isOctal c then (cs.take 2).takeWhile isOctal else []
    let (bytes, arguments) := formatted (cs.drop digits.length) arguments
    ((unescape true 0 ('\\' :: c :: digits)).1 ++ bytes, arguments)
  | c :: cs, arguments =>
    let (bytes, arguments) := formatted cs arguments
    (bytesOf c.toString ++ bytes, arguments)
termination_by cs => cs.length
decreasing_by all_goals simp_wf <;> omega

/-- A format as often as arguments are left. The fuel bounds their number. -/
def formattedAll (format : List Char) : Nat → List String → List UInt8
  | 0, arguments => (formatted format arguments).1
  | fuel + 1, arguments =>
    let (bytes, left) := formatted format arguments
    if left.isEmpty || left.length == arguments.length then bytes
    else bytes ++ formattedAll format fuel left

/-- **What `printf` writes.** -/
def printed (arguments : List String) : List UInt8 :=
  match arguments with
  | [] => []
  | format :: arguments => formattedAll format.toList arguments.length arguments

end PyBundle.Shell
