import PyBundle.Lexer.Leaf

/-!
# Branches

A branch is a part of a tree that the parser has built: a leaf, or a node over other branches. Each
branch carries the figures that the parser compares readings by, all of them sums over its parts:

* its cost, which counts the errors in it: a fixed cost for each place where the parser had to
  recover, and more the more text was skipped there;
* its weight, which the grammar gives to some constructs;
* how many nodes of it will be visible.
-/

namespace PyBundle.Parse

open Automaton (Table)
open Lexer (LayoutState Leaf Source)

/-- **The symbol of a branch.** -/
inductive Symbol where
  /-- A token or a rule of the grammar. -/
  | of (number : Nat)
  /-- Skipped text while it is being collected. -/
  | skipped
  /-- An error. -/
  | error
  deriving BEq, DecidableEq, Hashable, Repr, Inhabited

namespace Symbol

def isError : Symbol → Bool
  | .error => true
  | _ => false

/-- Whether a branch of this symbol holds text that was skipped. -/
def isFault : Symbol → Bool
  | .of _ => false
  | _ => true

/-- The order of symbols: numbers first, then skipped text, then errors. -/
def before : Symbol → Symbol → Bool
  | .of m, .of n => m < n
  | .of _, _ => true
  | .skipped, .error => true
  | _, _ => false

end Symbol

/-- **The figures of a branch.** Its text stretches from `start` to `stop`, the blanks before it from
`padding` to `start`. -/
structure Label where
  symbol : Symbol
  padding : Nat
  start : Nat
  stop : Nat
  /-- The cost of the errors in it. -/
  cost : Nat := 0
  /-- The visible nodes next below it. -/
  visibleChildren : Nat := 0
  /-- All visible nodes below it. -/
  visibleBelow : Nat := 0
  weight : Int := 0
  /-- Whether it may stand anywhere and so is no part of the construct around it. -/
  extra : Bool := false
  /-- Whether it stands for a token that the source lacks. -/
  missing : Bool := false
  /-- Whether it is an identifier or keyword with the text of a keyword. -/
  word : Bool := false
  /-- The names under which its parts are shown. -/
  shown : List (Option String) := []
  /-- The state of the layout scanner after it, if it is a layout token. -/
  layout : Option LayoutState := none
  /-- Whether a layout token in it changed that state. -/
  layoutMoved : Bool := false
  deriving Repr, Inhabited

/-- **A part of a tree.** -/
inductive Branch where
  | mk (label : Label) (parts : List Branch)
  deriving Repr, Inhabited

namespace Branch

def label : Branch → Label
  | .mk l _ => l

def parts : Branch → List Branch
  | .mk _ ps => ps

def symbol (b : Branch) : Symbol := b.label.symbol

def weight (b : Branch) : Int := b.label.weight

def isExtra (b : Branch) : Bool := b.label.extra

/-- The branch with another label. -/
def relabel (b : Branch) (f : Label → Label) : Branch := .mk (f b.label) b.parts

/-! ## Costs -/

/-- Every place where the parser recovered costs this. -/
def recoveryCost : Nat := 500

/-- A token that had to be added costs this. -/
def missingCost : Nat := 110

/-- A node that was skipped costs this. -/
def skippedNodeCost : Nat := 100

/-- A line that was skipped costs this; each byte of it costs 1. -/
def skippedLineCost : Nat := 30

/-- **The cost of the errors in a branch.** -/
def cost (b : Branch) : Nat :=
  if b.label.missing then missingCost + recoveryCost else b.label.cost

/-- The cost of skipped text from one position to another. -/
def textCost (s : Source) (i j : Nat) : Nat := s.bytes i j + skippedLineCost * s.breaks i j

/-- Whether the node of a branch will be visible. -/
def isVisible (t : Table) (b : Branch) : Bool :=
  match b.symbol with
  | .of n => t.grammar.visible.getD n false
  | .skipped => false
  | .error => true

/-- What a branch adds to the count of nodes that were read. Skipped text counts, since skipping is
progress. -/
def size (t : Table) (b : Branch) : Nat :=
  b.label.visibleBelow + (if b.isVisible t then 1 else 0)
    + (if b.symbol == .skipped then 1 else 0)

/-! ## Making branches -/

/-- The branch of a leaf. The end of the text may stand anywhere. -/
def ofLeaf (l : Leaf) : Branch :=
  .mk { symbol := l.token.elim .error .of, padding := l.padding, start := l.start, stop := l.stop,
        extra := l.token == some 0, word := l.word, layout := l.layout,
        layoutMoved := l.layoutMoved } []

/-- A token at a position where the source lacks it. -/
def absent (token position : Nat) : Branch :=
  .mk { symbol := .of token, padding := position, start := position, stop := position,
        missing := true } []

/-- What a part adds to the label of a node: `shown` holds the names of the parts from this one on.
-/
def addPart (t : Table) (l : Label) (shown : List (Option String)) (b : Branch) :
    Label × List (Option String) :=
  let own := b.isVisible t
  let renamed := !b.isExtra && b.symbol != .of 0 && (shown.head?.getD none).isSome
  let wasted :=
    if !l.symbol.isFault || b.isExtra || (b.symbol.isError && b.parts.isEmpty) then 0
    else if own then skippedNodeCost
    else skippedNodeCost * b.label.visibleChildren
  let label := { l with
    cost := l.cost + (if b.symbol == .skipped then 0 else b.cost) + wasted
    visibleChildren := l.visibleChildren
      + (if renamed || own then 1 else b.label.visibleChildren)
    visibleBelow := l.visibleBelow + b.label.visibleBelow + (if renamed || own then 1 else 0)
    weight := l.weight + b.weight
    layoutMoved := l.layoutMoved || b.label.layoutMoved }
  (label, if b.isExtra then shown else shown.tail)

/-- **The node of a symbol over some parts,** at a position if it has none. A fault costs its text. -/
def node (t : Table) (s : Source) (symbol : Symbol) (shown : List (Option String))
    (parts : List Branch) (position : Nat) : Branch :=
  let place := match parts with
    | [] => (position, position)
    | b :: _ => (b.label.padding, b.label.start)
  let stop := parts.getLast?.elim position (·.label.stop)
  let empty : Label := { symbol, padding := place.1, start := place.2, stop, shown }
  let label := (parts.foldl (fun acc b => addPart t acc.1 acc.2 b) (empty, shown)).1
  let label :=
    if symbol.isFault then
      { label with cost := label.cost + recoveryCost + textCost s label.start label.stop }
    else label
  .mk label parts

/-- The parts up to the last one that is no extra, and the extras behind it. -/
def splitExtras (parts : List Branch) : List Branch × List Branch :=
  let back := parts.reverse
  ((back.dropWhile isExtra).reverse, (back.takeWhile isExtra).reverse)

/-! ## Choosing between readings -/

/-- **The order of readings that cost and weigh the same:** the smaller symbol first, then fewer parts,
then part by part. The fuel bounds the nodes that are looked at. -/
def order : Nat → List (Branch × Branch) → Ordering
  | 0, _ => .eq
  | _ + 1, [] => .eq
  | fuel + 1, (a, b) :: rest =>
    if a.symbol.before b.symbol then .lt
    else if b.symbol.before a.symbol then .gt
    else match compare a.parts.length b.parts.length with
      | .eq => order fuel (a.parts.zip b.parts ++ rest)
      | o => o

/-- The number of nodes of a branch, itself included. -/
def nodes : Branch → Nat
  | .mk _ parts => 1 + sum parts
where
  sum : List Branch → Nat
    | [] => 0
    | b :: bs => nodes b + sum bs

/-- **Whether the second reading is to be taken:** the lower cost wins, then the higher weight. Of two
readings with errors that tie the later one is taken, of two without errors the smaller one. -/
def prefersSecond (a b : Branch) : Bool :=
  if b.cost != a.cost then b.cost < a.cost
  else if b.weight != a.weight then a.weight < b.weight
  else if 0 < a.cost then true
  else order (a.nodes + 1) [(a, b)] == .gt

end Branch

end PyBundle.Parse
