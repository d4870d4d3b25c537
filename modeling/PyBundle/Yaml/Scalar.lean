import PyBundle.Json.Printer
import PyBundle.Yaml.Number

/-!
# Strings in YAML

A string is written plainly if it is then read as the same string. Otherwise it is quoted: in single
quotes if all of it can be shown, in double quotes with escapes if not. A string of several lines is
written as a block, each line indented.
-/

namespace PyBundle.Yaml

/-! ## Characters -/

/-- **Whether a character can be shown.** Control characters and the byte order mark cannot. -/
def isPrintable (c : Char) : Bool :=
  let n := c.toNat
  n == 10 || (32 ≤ n && n ≤ 126) || (0xA0 ≤ n && n ≤ 0xD7FF) ||
    (0xE000 ≤ n && n ≤ 0xFFFD && n != 0xFEFF) || 0x10000 ≤ n

/-- **Whether a character breaks a line.** -/
def isBreak (c : Char) : Bool :=
  c == '\n' || c == '\x0d' || c == '\u0085' || c == '\u2028' || c == '\u2029'

/-- Whether a character separates words. The end of a string, and a NUL, count too. -/
def separates (c? : Option Char) : Bool :=
  c?.all fun c => c == ' ' || c == '\t' || c == '\x00' || isBreak c

/-! ## What a string holds -/

/-- Whether a string holds two characters of some kinds in a row. -/
def holdsPair (first second : Char → Bool) : List Char → Bool
  | a :: b :: rest => (first a && second b) || holdsPair first second (b :: rest)
  | _ => false

/-- Whether a colon stands before a separation, or a `#` behind one. -/
def holdsIndicator : Option Char → List Char → Bool
  | _, [] => false
  | before, c :: rest =>
    (c == ':' && separates rest.head?) || (c == '#' && separates before) || holdsIndicator (some c) rest

/-- **Whether a string starts or goes on as something else than a string.** -/
def isIndicated (cs : List Char) : Bool :=
  cs.take 3 == ['-', '-', '-'] || cs.take 3 == ['.', '.', '.'] || holdsIndicator none cs ||
    match cs with
    | [] => false
    | c :: rest =>
      "#,[]\x7b\x7d&*!|>'\"%@\x60".toList.contains c ||
        ((c == '?' || c == ':' || c == '-') && separates rest.head?)

/-- **How a string may be written.** -/
structure Styles where
  plain : Bool
  single : Bool
  block : Bool

/-- Which styles are right for a string. -/
def stylesOf (cs : List Char) : Styles :=
  let isSpace (c : Char) : Bool := c == ' '
  let atEnds (p : Char → Bool) : Bool := cs.head?.any p || cs.getLast?.any p
  let breakSpace := holdsPair isBreak isSpace cs
  let spaceBreak := holdsPair isSpace isBreak cs
  let special := cs.any (!isPrintable ·)
  let single := !breakSpace && !spaceBreak && !special
  { single
    plain := single && !atEnds isSpace && !cs.any isBreak && !isIndicated cs
    block := !cs.isEmpty && !cs.getLast?.any isSpace && !spaceBreak && !special }

/-! ## Styles -/

/-- **A string in single quotes.** Quotes are doubled, and what follows a line break is indented. -/
def singleQuoted (indent : Nat) (cs : List Char) : List Char :=
  let rec go (broken : Bool) : List Char → List Char
    | [] => (if broken then List.replicate indent ' ' else []) ++ ['\'']
    | c :: rest =>
      if isBreak c then c :: go true rest
      else
        let shown := if c == '\'' then ['\'', '\''] else [c]
        (if broken && c != ' ' then List.replicate indent ' ' else []) ++ shown ++ go (broken && c == ' ') rest
  '\'' :: go false cs

/-- The digits of a number in base sixteen, in capitals. -/
def hexDigits (width n : Nat) : List Char :=
  (List.range width).reverse.map fun k => (Json.hexDigit (n / Nat.pow 16 k % 16)).toUpper

/-- **How a character is written in double quotes.** -/
def escapeChar (c : Char) : List Char :=
  if isPrintable c && !isBreak c && c != '"' && c != '\\' then [c]
  else
    '\\' :: match c.toNat with
      | 0 => ['0']
      | 7 => ['a']
      | 8 => ['b']
      | 9 => ['t']
      | 10 => ['n']
      | 11 => ['v']
      | 12 => ['f']
      | 13 => ['r']
      | 0x1B => ['e']
      | 0x22 => ['"']
      | 0x5C => ['\\']
      | 0x85 => ['N']
      | 0xA0 => ['_']
      | 0x2028 => ['L']
      | 0x2029 => ['P']
      | n =>
        if n ≤ 0xFF then 'x' :: hexDigits 2 n
        else if n ≤ 0xFFFF then 'u' :: hexDigits 4 n
        else 'U' :: hexDigits 8 n

/-- A string in double quotes. -/
def doubleQuoted (cs : List Char) : List Char := '"' :: cs.flatMap escapeChar ++ ['"']

/-- What says how a block ends: `-` without a line break, `+` with more than one. -/
def chomping (cs : List Char) : List Char :=
  match cs.reverse with
  | [] => ['-']
  | last :: before =>
    if !isBreak last then ['-']
    else if before.head?.all isBreak then ['+']
    else []

/-- **A string as a block.** A block that starts with a blank says how far it is indented. -/
def block (indent : Nat) (cs : List Char) : List Char :=
  let hint := if cs.head?.any fun c => c == ' ' || isBreak c then ['2'] else []
  let rec go (broken : Bool) : List Char → List Char
    | [] => []
    | c :: rest =>
      if isBreak c then c :: go true rest
      else (if broken then List.replicate indent ' ' else []) ++ c :: go false rest
  '|' :: hint ++ chomping cs ++ '\n' :: go true cs

/-- Whether a plain string would be read as something else than a string. -/
def isAmbiguous (s : String) : Bool :=
  ["", "~", "null", "Null", "NULL", "true", "True", "TRUE", "false", "False", "FALSE"].contains s ||
    hasLeadingZero s.toList || isNumber s

/-- **A string as it is written** with some indentation for what does not stand on its first line. -/
def scalar (indent : Nat) (s : String) : List Char :=
  let cs := s.toList
  let styles := stylesOf cs
  if cs.contains '\n' then (if styles.block then block indent cs else doubleQuoted cs)
  else if styles.plain && !isAmbiguous s then cs
  else if styles.single then singleQuoted indent cs
  else doubleQuoted cs

end PyBundle.Yaml
