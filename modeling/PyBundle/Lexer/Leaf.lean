import PyBundle.Automaton.Table
import PyBundle.Lexer.Layout

/-!
# Leaves

The lexer finds the next token of a source for a state of the parser (`Table.nextLeaf`): first the
layout token that is wanted, then the token that the state's mode looks for. If there is neither, it
looks once more for any token at all, and if that fails too it skips characters until something can
be read. The skipped characters are then the leaf, and what stopped the skipping is found again next
time.
-/

namespace PyBundle.Lexer

open Grammar (Normal Token)
open Automaton (Table errorState wordToken)

/-- **A token in the source.** The blanks before it stretch from `padding` to `start`. -/
structure Leaf where
  /-- The token, or `none` for characters that are no token. -/
  token : Option Nat
  padding : Nat
  start : Nat
  stop : Nat
  /-- The state of the layout scanner after a token that it has found. -/
  layout : Option LayoutState := none
  /-- Whether that state differs from the one before. -/
  layoutMoved : Bool := false
  /-- Whether the text is that of a keyword. -/
  word : Bool := false
  deriving Repr, Inhabited

/-- A match of a token at a position. -/
structure Match where
  token : Nat
  start : Nat
  stop : Nat
  deriving Repr, Inhabited

/-- The position after a text that stands at position `i`. -/
def afterText? (s : Source) : List Char → Nat → Option Nat
  | [], i => some i
  | c :: cs, i => if s.peek i == c && !s.atEnd i then afterText? s cs (i + 1) else none

/-- The end of the longest match of a token at a position. -/
def matchToken? (s : Source) (t : Token) (i : Nat) : Option Nat :=
  match t with
  | .fixed text => afterText? s text.toList i
  | .pattern c => (Pattern.ofClass c).longest? s.classes i
  | .endOfText => none
  | .layout _ => none

/-- The first position from `i` on that no separator precedes, or where `stops` holds. -/
def skipSeparators (s : Source) (stops : CharClass → Bool) : Nat → Nat → Nat
  | 0, i => i
  | fuel + 1, i =>
    match s.classes[i]? with
    | some k =>
      if CharSet.separators.contains k && !stops k then skipSeparators s stops fuel (i + 1) else i
    | none => i

/-- Of two matches that start together the winning one, where the first token comes before the
second. -/
def winner (g : Normal) (a b : Match) : Match :=
  match g.tokens[a.token]?, g.tokens[b.token]? with
  | some s, some t =>
    if precedence s != precedence t then (if precedence t < precedence s then a else b)
    else if a.stop != b.stop then (if b.stop < a.stop then a else b)
    else if winsTie s t then a else b
  | _, _ => a

/-- **The token of a set that stands at a position,** after separators, and otherwise the position
after the separators. Text inside a format specifier begins with its blanks. -/
def matchAt (g : Normal) (s : Source) (wanted : List (Nat × Token)) (i : Nat) : Match ⊕ Nat :=
  let inSpecifier := wanted.any (·.2 == .pattern .formatText)
  let stops := fun k => inSpecifier && k != '\n'.toNat
  let start := skipSeparators s stops (s.size + 1 - i) i
  let found := wanted.foldl (fun (best : Option Match) (t, k) =>
    if isImmediate k && start != i then best
    else match k, matchToken? s k start with
      | .endOfText, _ => if s.atEnd start then some ⟨t, start, start⟩ else best
      | _, some stop =>
        match best with
        | some b => some (winner g b ⟨t, start, stop⟩)
        | none => some ⟨t, start, stop⟩
      | _, none => best) none
  match found with
  | some m => .inl m
  | none => .inr start

/-- What the lexer knows of the parser: where it stands, the state of the layout scanner, whether
anything was read since the last error. -/
structure Place where
  state : Nat
  position : Nat
  layout : Option LayoutState
  advanced : Bool

/-- **The layout token for a place,** looked for in a state and at a position. A token without text
that leaves the layout as it was is not taken where it could be taken for ever. -/
def layoutAt (t : Table) (s : Source) (p : Place) (recovering : Bool) (state i : Nat) : Option Leaf :=
  match (t.wanted.getD state none).bind (Layout.scan s (p.layout.getD {}) · i) with
  | none => none
  | some f =>
    let token := t.tokenNumber (.layout f.token)
    let moved := some f.state != p.layout
    let idle := f.stop ≤ i && !moved
      && (recovering || !p.advanced || t.next p.state token == p.state)
    if idle then none
    else some { token, padding := p.position, start := min f.start f.stop, stop := f.stop,
                layout := some f.state, layoutMoved := moved }

/-- The leaf of a match. An identifier that is a keyword of the state is that keyword. -/
def leafOf (t : Table) (s : Source) (p : Place) (m : Match) : Leaf :=
  let plain : Leaf := { token := m.token, padding := p.position, start := m.start, stop := m.stop }
  if m.token == wordToken then
    match t.keywords.lookup (s.slice m.start m.stop) with
    | some k => { plain with word := true
                             token := if (t.actions p.state k).isEmpty then m.token else k }
    | none => plain
  else plain

/-- Looks for a token from position `i` on in the error mode, after the characters from `skipped` on
could not be read. The fuel bounds the characters that are left. -/
def skipUnreadable (t : Table) (s : Source) (p : Place) : Nat → Option (Nat × Nat) → Nat → Leaf
  | 0, _, i => { token := none, padding := p.position, start := i, stop := i }
  | fuel + 1, skipped, i =>
    let finish (l : Leaf) : Leaf :=
      match skipped with
      | some (start, stop) => { token := none, padding := p.position, start, stop }
      | none => l
    match layoutAt t s p true errorState i with
    | some l => finish l
    | none =>
      match matchAt t.grammar s (t.lookedForIn errorState) i with
      | .inl m => finish (leafOf t s p m)
      | .inr j =>
        let (start, stop) := skipped.getD (j, j)
        if j == stop then
          if s.atEnd j then { token := none, padding := p.position, start, stop }
          else skipUnreadable t s p fuel (some (start, j + 1)) (j + 1)
        else skipUnreadable t s p fuel (some (start, j)) j

/-- **The next leaf for a place.** -/
def nextLeaf (t : Table) (s : Source) (p : Place) : Leaf :=
  let recover := skipUnreadable t s p (2 * (s.size + 2)) none p.position
  if p.state == errorState then recover
  else match layoutAt t s p false p.state p.position with
    | some l => l
    | none =>
      match matchAt t.grammar s (t.lookedForIn p.state) p.position with
      | .inl m => leafOf t s p m
      | .inr _ => recover

end PyBundle.Lexer
