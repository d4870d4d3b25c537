/-!
# Grammar rules

A rule describes the sequences of tokens that one construct of a language admits. Rules are built
from fixed texts, token patterns and references to other rules by sequence, choice and repetition;
three decorations steer the resolution of ambiguities and the shape of the tree.

* `Rule.level` gives the enclosed symbols a precedence, and perhaps an associativity. It is used
  while the automaton is built: of two readings of one prefix the higher level wins.
* `Rule.weigh` gives the construct a weight that is used while parsing: of two complete readings the
  heavier one wins.
* `Rule.shown` gives the node a name of its own in the tree.

The combinators at the end (`Rule.option`, `Rule.many`, `Rule.sepBy`, …) are derived from these.
-/

namespace PyBundle.Grammar

/-- **The classes of tokens that are no fixed text.** What each one matches is in
`PyBundle.Lexer.Pattern`. -/
inductive TokenClass where
  /-- A name: an identifier start followed by identifier characters. -/
  | identifier
  /-- An integer literal, in any radix, perhaps with a suffix. -/
  | integer
  /-- A floating point literal, perhaps imaginary. -/
  | float
  /-- A comment, up to the end of its line. -/
  | comment
  /-- A backslash that joins two lines. -/
  | lineContinuation
  /-- An escape sequence inside a string. -/
  | escapeSequence
  /-- A backslash inside a string that starts no escape sequence. -/
  | loneBackslash
  /-- Literal text inside the format specifier of an interpolation. -/
  | formatText
  /-- The conversion of an interpolation, such as `!r`. -/
  | typeConversion
  deriving BEq, DecidableEq, Hashable, Repr, Inhabited

/-- **The tokens that depend on layout or on an open string,** in the order in which the grammar
lists them. They are found by `PyBundle.Lexer.Layout`, which keeps a state between tokens. -/
inductive LayoutToken where
  | newline
  | indent
  | dedent
  | stringStart
  | stringContent
  | escapeInterpolation
  | stringEnd
  deriving BEq, DecidableEq, Hashable, Repr, Inhabited

/-- **A token of the grammar.** -/
inductive Token where
  /-- The end of the text. -/
  | endOfText
  /-- A keyword, an operator or a delimiter. -/
  | fixed (text : String)
  /-- A token given by a pattern. -/
  | pattern (c : TokenClass)
  /-- A token that depends on layout or on an open string. -/
  | layout (t : LayoutToken)
  deriving BEq, DecidableEq, Hashable, Repr, Inhabited

/-- Whether equal operators group to the left or to the right. -/
inductive Assoc where
  | left
  | right
  deriving BEq, DecidableEq, Hashable, Repr, Inhabited

/-- **A rule of a grammar.** -/
inductive Rule where
  /-- The empty sequence. -/
  | blank
  /-- One token. -/
  | token (t : Token)
  /-- What the rule of this name admits. -/
  | ref (name : String)
  /-- One rule, then another. -/
  | seq (first second : Rule)
  /-- One rule or another. -/
  | alt (first second : Rule)
  /-- A rule once or more often. -/
  | plus (body : Rule)
  /-- A rule at a precedence, and perhaps with an associativity. -/
  | level (precedence : Int) (assoc : Option Assoc) (body : Rule)
  /-- A rule whose node has a weight while parsing. -/
  | weigh (weight : Int) (body : Rule)
  /-- A rule whose node is shown under this name. -/
  | shown (name : String) (body : Rule)
  deriving BEq, Hashable, Repr, Inhabited

namespace Rule

/-- A text in a rule stands for the fixed token of that text. -/
instance : Coe String Rule := ⟨fun s => .token (.fixed s)⟩

/-- Rules in sequence. -/
def all : List Rule → Rule
  | [] => .blank
  | [r] => r
  | r :: rs => .seq r (all rs)

/-- A choice between rules. -/
def any : List Rule → Rule
  | [] => .blank
  | [r] => r
  | r :: rs => .alt r (any rs)

/-- A choice between the rules of these names. -/
def anyRef (names : List String) : Rule := any (names.map .ref)

/-- A rule or nothing. -/
def option (r : Rule) : Rule := .alt r .blank

/-- A rule any number of times. -/
def many (r : Rule) : Rule := option (.plus r)

/-- A rule once or more often, with a separator between. -/
def sepBy (r separator : Rule) : Rule := .seq r (many (.seq separator r))

/-- A rule once or more often, with commas between. -/
def commaSep (r : Rule) : Rule := sepBy r ","

/-- A rule once or more often, with commas between and perhaps one at the end. -/
def commaList (r : Rule) : Rule := .seq (commaSep r) (option ",")

/-- A rule at a precedence. -/
def ranked (precedence : Int) (r : Rule) : Rule := .level precedence none r

/-- A rule at a precedence that groups to the left. -/
def leftAssoc (precedence : Int) (r : Rule) : Rule := .level precedence (some .left) r

/-- A rule at a precedence that groups to the right. -/
def rightAssoc (precedence : Int) (r : Rule) : Rule := .level precedence (some .right) r

end Rule

/-- **A grammar** as it is written down. The first rule is the start rule. -/
structure Ruleset where
  /-- The rules in order. The order numbers the symbols, and it settles ties. -/
  rules : List (String × Rule)
  /-- The layout tokens in order, with the names that rules use for them. -/
  layout : List (String × LayoutToken)
  /-- Tokens of the rules that tell the layout scanner where it stands: closing brackets and the
  like, each of which it must know to be admissible. -/
  landmarks : List Token
  /-- The rules that are replaced by their bodies where they are used. -/
  inlined : List String
  /-- The rules that only gather others and get no node of their own. -/
  gathered : List String
  /-- The tokens that may stand between any two others. -/
  extras : List Token

end PyBundle.Grammar
