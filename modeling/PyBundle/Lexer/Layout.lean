import PyBundle.Grammar.TokenSet
import PyBundle.Lexer.Source

/-!
# Layout and strings

Some tokens of Python depend on more than the characters at hand: where a line ends and how deep the
next one is indented, and which string is open. The layout scanner finds them. It keeps a state
between tokens, the indentations of the open blocks and the open strings, and it is told which tokens
are wanted, since the same line break ends a statement in one place and means nothing between
brackets.
-/

namespace PyBundle.Lexer

open Grammar (LayoutToken Normal Token TokenSet)

/-- **An open string:** its quotation mark, whether the mark stands three times, and what the letters
before it say. -/
structure Quote where
  mark : Char
  triple : Bool := false
  format : Bool := false
  raw : Bool := false
  bytes : Bool := false
  deriving BEq, DecidableEq, Repr, Inhabited

instance : Hashable Quote where
  hash q := mixHash (hash q.mark.toNat) (hash (q.triple, q.format, q.raw, q.bytes))

/-- **What the layout scanner knows between two tokens.** Both lists have the innermost first. -/
structure LayoutState where
  /-- Whether the string that was opened last is a format string that is still open. -/
  inFormat : Bool := false
  quotes : List Quote := []
  /-- The indentations of the open blocks. -/
  indents : List Nat := [0]
  deriving BEq, DecidableEq, Hashable, Repr, Inhabited

/-- **The layout tokens that are wanted,** and two landmarks: whether a closing bracket and whether
`except` may come next. -/
structure Wanted where
  newline : Bool
  indent : Bool
  dedent : Bool
  stringStart : Bool
  stringContent : Bool
  escapeInterpolation : Bool
  closing : Bool
  except : Bool
  deriving Repr, Inhabited

namespace Wanted

/-- What a set of tokens asks of the layout scanner. -/
def ofSet (number : Token → Nat) (s : TokenSet) : Wanted :=
  let has := fun t => s.contains (number t)
  { newline := has (.layout .newline)
    indent := has (.layout .indent)
    dedent := has (.layout .dedent)
    stringStart := has (.layout .stringStart)
    stringContent := has (.layout .stringContent)
    escapeInterpolation := has (.layout .escapeInterpolation)
    closing := has (.fixed ")") || has (.fixed "]") || has (.fixed "\x7d")
    except := has (.fixed "except") }

/-- String content and an indentation are wanted together only in recovery from an error. -/
def recovering (w : Wanted) : Bool := w.stringContent && w.indent

end Wanted

/-- **A layout token that was found:** where it starts and stops, and the state after it. -/
structure Found where
  token : LayoutToken
  start : Nat
  stop : Nat
  state : LayoutState
  deriving Repr, Inhabited

namespace Layout

/-- What a part of the scanner says: a token, nothing at all, or that the search goes on at a
position. -/
inductive Outcome where
  | found (f : Found)
  | nothing
  | goOn (i : Nat)
  deriving Repr, Inhabited

/-! ## Inside a string -/

/-- Two equal braces inside a format string stand for one. -/
def scanEscape (s : Source) (st : LayoutState) (i : Nat) : Option Found :=
  if s.peek (i + 1) == s.peek i then some ⟨.escapeInterpolation, i, i + 2, st⟩ else none

/-- The position after a backslash of a raw string and what it covers: a quotation mark, another
backslash, a line break. -/
def skipRaw (s : Source) (q : Quote) (i : Nat) : Nat :=
  let i := i + 1
  let i := if s.peek i == q.mark || s.peek i == '\\' then i + 1 else i
  if s.peek i == '\r' then (if s.peek (i + 1) == '\n' then i + 2 else i + 1)
  else if s.peek i == '\n' then i + 1
  else i

/-- **The content of the open string `q` or its end,** from position `start`; `i` is the position that
has been reached, and `any` says that it counts as content so far. Content stops before an escape,
and in a format string before a brace. The fuel bounds the characters that are left. -/
def scanContent (s : Source) (st : LayoutState) (q : Quote) (start : Nat) :
    Nat → Bool → Nat → Outcome
  | 0, _, i => .goOn i
  | fuel + 1, any, i =>
    let c := s.peek i
    let content (stop : Nat) : Outcome := .found ⟨.stringContent, start, stop, st⟩
    let contentIfAny : Outcome := if any then content i else .nothing
    let close (stop : Nat) : Outcome :=
      .found ⟨.stringEnd, start, stop, { st with inFormat := false, quotes := st.quotes.tail }⟩
    if c == '\x00' then .goOn i
    else if q.format && (c == '\x7b' || c == '\x7d') then contentIfAny
    else if c == '\\' then
      if q.raw then scanContent s st q start fuel any (skipRaw s q i)
      else if q.bytes && (s.peek (i + 1) == 'N' || s.peek (i + 1) == 'u' || s.peek (i + 1) == 'U') then
        scanContent s st q start fuel true (min (i + 3) s.size)
      else contentIfAny
    else if c == q.mark then
      if q.triple then
        if s.peek (i + 1) != q.mark then content (i + 1)
        else if s.peek (i + 2) != q.mark then content (i + 2)
        else if any then content i
        else close (i + 3)
      else if any then content i
      else close (i + 1)
    else if c == '\n' && any && !q.triple then .nothing
    else scanContent s st q start fuel true (i + 1)

/-! ## Between tokens -/

/-- **The blanks before the next token:** whether a line ended in them, the indentation of the line
that was reached, and the indentation of the first comment on a line of its own. -/
structure Blanks where
  stop : Nat
  /-- Where the token after the blanks starts: blanks are skipped, other characters are not. -/
  start : Nat
  lineEnded : Bool := false
  indent : Nat := 0
  comment : Option Nat := none
  deriving Repr, Inhabited

/-- The position after the rest of a line and its line break. -/
def skipLine (s : Source) : Nat → Nat → Nat
  | 0, i => i
  | fuel + 1, i =>
    if s.peek i == '\x00' then (if s.atEnd i then i else i + 1)
    else if s.peek i == '\n' then i + 1
    else skipLine s fuel (i + 1)

/-- **Skips blanks, line breaks and comments.** `none` means that no layout token can come here: a
comment behind a statement, or a backslash that joins no lines. The fuel bounds the characters that
are left. -/
def skipBlanks (s : Source) (seesComments : Bool) : Nat → Blanks → Option Blanks
  | 0, b => some b
  | fuel + 1, b =>
    let i := b.stop
    let c := s.peek i
    let skip (stop : Nat) (b : Blanks) : Option Blanks :=
      skipBlanks s seesComments fuel { b with stop, start := stop }
    if s.atEnd i then some { b with indent := 0, lineEnded := true }
    else if c == '\n' then skip (i + 1) { b with lineEnded := true, indent := 0 }
    else if c == ' ' then skip (i + 1) { b with indent := b.indent + 1 }
    else if c == '\r' || c == '\x0c' then skip (i + 1) { b with indent := 0 }
    else if c == '\t' then skip (i + 1) { b with indent := b.indent + 8 }
    else if c == '#' && seesComments then
      if b.lineEnded then
        skip (skipLine s (s.size + 1 - i) i) { b with comment := b.comment.or (some b.indent), indent := 0 }
      else none
    else if c == '\\' then
      let j := if s.peek (i + 1) == '\r' then i + 2 else i + 1
      if s.atEnd j then skip j b
      else if s.peek j == '\n' then skip (j + 1) b
      else none
    else some b

/-- **What the end of a line means:** a block is opened or closed, or a statement ends. -/
def endOfLine (s : Source) (st : LayoutState) (w : Wanted) (stop : Nat) (b : Blanks) : Option Found :=
  let found (t : LayoutToken) (st : LayoutState) : Option Found := some ⟨t, b.start, stop, st⟩
  let newline : Option Found :=
    if w.newline && !w.recovering then found .newline st else none
  match st.indents with
  | [] => newline
  | current :: outer =>
    let atString := ['"', '\'', '\x60'].contains (s.peek b.stop)
    let closes := w.dedent || (!w.newline && !(w.stringStart && atString) && !w.closing)
    if w.indent && current < b.indent then
      found .indent { st with indents := b.indent :: st.indents }
    else if closes && b.indent < current && !st.inFormat && b.comment.all (· < current) then
      found .dedent { st with indents := outer }
    else newline

/-- The letters before a string, and the position after them. -/
def stringLetters (s : Source) : Nat → Quote → Nat → Quote × Nat
  | 0, q, i => (q, i)
  | fuel + 1, q, i =>
    match (s.peek i).toLower with
    | 'f' => stringLetters s fuel { q with format := true } (i + 1)
    | 'r' => stringLetters s fuel { q with raw := true } (i + 1)
    | 'b' => stringLetters s fuel { q with bytes := true } (i + 1)
    | 'u' => stringLetters s fuel q (i + 1)
    | _ => (q, i)

/-- **The start of a string.** -/
def scanStart (s : Source) (st : LayoutState) (start i : Nat) : Option Found :=
  let (q, j) := stringLetters s (s.size + 1 - i) ⟨'\x00', false, false, false, false⟩ i
  let mark := s.peek j
  let opened (triple : Bool) (stop : Nat) : Option Found :=
    let q := { q with mark, triple }
    some ⟨.stringStart, start, stop, { st with inFormat := q.format, quotes := q :: st.quotes }⟩
  if mark == '\x60' then opened false (j + 1)
  else if mark == '"' || mark == '\'' then
    if s.peek (j + 1) == mark && s.peek (j + 2) == mark then opened true (j + 3)
    else opened false (j + 1)
  else none

/-- The layout token after the blanks at position `i`, where the token was looked for from `start`
on. -/
def scanBlanks (s : Source) (st : LayoutState) (w : Wanted) (start i : Nat) : Option Found :=
  let seesComments := w.indent || w.dedent || w.newline || w.except
  match skipBlanks s seesComments (s.size + 2 - i) { stop := i, start } with
  | none => none
  | some b =>
    match if b.lineEnded then endOfLine s st w i b else none with
    | some f => some f
    | none => if b.comment.isNone && w.stringStart then scanStart s st b.start b.stop else none

/-- **The layout token at a position,** if there is one that is wanted. -/
def scan (s : Source) (st : LayoutState) (w : Wanted) (i : Nat) : Option Found :=
  let c := s.peek i
  match st.quotes with
  | [] => scanBlanks s st w i i
  | q :: _ =>
    if w.recovering then scanBlanks s st w i i
    else if w.escapeInterpolation && q.format && (c == '\x7b' || c == '\x7d') then scanEscape s st i
    else if w.stringContent then
      match scanContent s st q i (s.size + 1 - i) false i with
      | .found f => some f
      | .nothing => none
      | .goOn j => scanBlanks s st w i j
    else scanBlanks s st w i i

end Layout

end PyBundle.Lexer
