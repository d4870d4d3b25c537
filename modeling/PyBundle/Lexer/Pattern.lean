import PyBundle.Grammar.Rule
import PyBundle.Lexer.CharSet

/-!
# Token patterns

A token that is no fixed text is given by a regular expression over sets of characters. A pattern is
run by its derivatives: `Pattern.heads` lists the sets of characters that it can begin with, each
with the pattern of what remains. The same derivatives decide whether two tokens overlap
(`PyBundle.Lexer.Overlap`).
-/

namespace PyBundle.Lexer

open Grammar (Token TokenClass)

/-- **A regular expression.** -/
inductive Pattern where
  /-- The empty text. -/
  | empty
  /-- One character of a set. -/
  | chars (s : CharSet)
  /-- One pattern, then another. -/
  | seq (first second : Pattern)
  /-- One pattern or another. -/
  | alt (first second : Pattern)
  /-- A pattern any number of times. -/
  | star (body : Pattern)
  deriving BEq, DecidableEq, Hashable, Repr, Inhabited

namespace Pattern

/-- A text as a pattern. -/
def ofChars : List Char → Pattern
  | [] => .empty
  | [c] => .chars (.ofClass (CharClass.of c))
  | c :: rest => .seq (.chars (.ofClass (CharClass.of c))) (ofChars rest)

instance : Coe String Pattern := ⟨fun s => ofChars s.toList⟩

/-- Patterns in sequence. -/
def all : List Pattern → Pattern
  | [] => .empty
  | [p] => p
  | p :: ps => .seq p (all ps)

/-- A choice between patterns. -/
def any : List Pattern → Pattern
  | [] => .empty
  | [p] => p
  | p :: ps => .alt p (any ps)

def option (p : Pattern) : Pattern := .alt p .empty

def plus (p : Pattern) : Pattern := .seq p (.star p)

def times : Nat → Pattern → Pattern
  | 0, _ => .empty
  | n + 1, p => .seq p (times n p)

/-- Whether a pattern matches the empty text. -/
def nullable : Pattern → Bool
  | .empty => true
  | .chars _ => false
  | .seq p q => p.nullable && q.nullable
  | .alt p q => p.nullable || q.nullable
  | .star _ => true

/-- What remains of a pattern, before another one. -/
def before (q : Pattern) : Pattern → Pattern
  | .empty => q
  | p => .seq p q

/-- **The ways to begin a match:** a set of characters, and the pattern of what follows one of
them. -/
def heads : Pattern → List (CharSet × Pattern)
  | .empty => []
  | .chars s => [(s, .empty)]
  | .seq p q =>
    let first := p.heads.map fun h => (h.1, before q h.2)
    if p.nullable then first ++ q.heads else first
  | .alt p q => p.heads ++ q.heads
  | .star p => p.heads.map fun h => (h.1, before (.star p) h.2)

/-- The patterns that remain after a character of a class. -/
def step (ps : List Pattern) (k : CharClass) : List Pattern :=
  ps.foldl (fun rest p => p.heads.foldl (fun rest h =>
    if h.1.contains k && !rest.contains h.2 then h.2 :: rest else rest) rest) []

/-- The end of the longest match from position `i`, if there is one. The end of the text counts as
one NUL character. -/
def longest? (text : Array CharClass) (p : Pattern) (i : Nat) : Option Nat :=
  go (text.size + 1 - i) [p] i none
where
  go : Nat → List Pattern → Nat → Option Nat → Option Nat
    | 0, _, _, found => found
    | fuel + 1, ps, i, found =>
      match text[i]? with
      | some k =>
        match step ps k with
        | [] => found
        | rest => go fuel rest (i + 1) (if rest.any nullable then some (i + 1) else found)
      | none => if (step ps 0).any nullable then some i else found

/-! ## The patterns of Python tokens -/

/-- Digits with single underscores between or after them. -/
def digits : Pattern := plus (.seq (.chars .digits) (option "_"))

/-- An exponent. -/
def exponent : Pattern :=
  all [.chars (.ofString "eE"), option (.chars (.ofString "+-")), digits]

/-- An integer in a radix that a letter after the zero announces. -/
def radix (letters : String) (ds : CharSet) : Pattern :=
  all ["0", .chars (.ofString letters), plus (.seq (option "_") (plus (.chars ds))),
    option (.chars (.ofString "Ll"))]

/-- **The pattern of a token class.** -/
def ofClass : TokenClass → Pattern
  | .identifier => .seq (.chars .wordStart) (.star (.chars .wordContinue))
  | .integer => any [radix "xX" .hexDigits, radix "oO" (.range '0' '7'), radix "bB" (.range '0' '1'),
      .seq digits (option (.chars (.ofString "LljJ")))]
  | .float => .seq (any [all [digits, ".", option digits, option exponent],
      all [option digits, ".", digits, option exponent], .seq digits exponent])
      (option (.chars (.ofString "jJ")))
  | .comment => .seq "#" (.star (.chars (CharSet.all.diff (.ofString "\n"))))
  | .lineContinuation => .seq "\\" (.alt (.seq (option "\r") "\n") (.chars (.ofClass 0)))
  | .escapeSequence => .seq "\\" (any [
      .seq "u" (times 4 (.chars .hexDigits)), .seq "U" (times 8 (.chars .hexDigits)),
      .seq "x" (times 2 (.chars .hexDigits)),
      .seq (.chars .digits) (option (.seq (.chars .digits) (option (.chars .digits)))),
      .seq (option "\r") "\n", .chars (.ofString "'\"abfrntv\\"),
      all ["N\x7b", plus (.chars (CharSet.all.diff (.ofString "\x7d"))), "\x7d"]])
  | .loneBackslash => "\\"
  | .formatText => plus (.chars (CharSet.all.diff (.ofString "\x7b\x7d\n")))
  | .typeConversion => .seq "!" (.chars (.range 'a' 'z'))

/-- **The pattern of a token,** if it is found by one. -/
def ofToken? : Token → Option Pattern
  | .fixed text => some (ofChars text.toList)
  | .pattern c => some (ofClass c)
  | .endOfText => none
  | .layout _ => none

end Pattern

/-! ## Which of two matches wins -/

/-- Whether a token has to follow the last one directly. -/
def isImmediate : Token → Bool
  | .pattern .escapeSequence => true
  | .pattern .loneBackslash => true
  | _ => false

/-- A match of a token of higher precedence wins over a longer match. -/
def precedence : Token → Nat
  | .pattern .lineContinuation => 1
  | .pattern .escapeSequence => 1
  | .pattern .formatText => 1
  | _ => 0

/-- Of two matches of one text that of the more specific token wins. -/
def specificity : Token → Nat
  | .fixed _ => 2
  | t => if isImmediate t then 1 else 0

/-- **Whether a match of token `a` wins over a match of `b` of the same text,** where `a` comes
before `b` in the order of tokens. -/
def winsTie (a b : Token) : Bool :=
  if precedence a == precedence b then specificity b ≤ specificity a
  else precedence b < precedence a

end PyBundle.Lexer
