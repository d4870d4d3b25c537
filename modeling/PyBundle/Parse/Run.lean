import PyBundle.Parse.Recovery

/-!
# Parsing

All readings of a source are advanced in turn, each by one token, until a tree is complete that no
reading can better (`parse`). After each round the readings are put in order: those that have come to
the same point are merged, those that are clearly worse are given up, and if no reading can go on the
best one recovers.

The parser never refuses a source. What it cannot read is an error in the tree.
-/

namespace PyBundle.Parse

open Automaton (Action Table errorState firstState wordToken)
open Lexer (Place Source nextLeaf)

namespace Stack

/-! ## One token -/

/-- Takes a token. One that is found by the layout scanner moves its state. -/
def shift (t : Table) (k : Stack) (v state : Nat) (lookahead : Branch) (extra : Bool) : Stack :=
  let k := k.push t v (some (lookahead.relabel ({ · with extra }))) state
  match lookahead.label.layout with
  | some st => k.modifyHead v ({ · with layout := some st })
  | none => k

/-- Does what a state does on a token. The answer is `some` if the reading has dealt with the token,
and otherwise the last reading that a reduction made. -/
def act (t : Table) (s : Source) (v : Nat) (lookahead : Branch) (state : Nat) :
    List Action → Option Nat → Stack → Stack × Option Nat × Bool
  | [], made, k => (k, made, false)
  | a :: rest, made, k =>
    match a with
    | .shift _ true => act t s v lookahead state rest made k
    | .shift next false => (k.shift t v next lookahead false, none, true)
    | .stay => (k.shift t v state lookahead true, none, true)
    | .accept => (accept t s k v lookahead, none, true)
    | .recover => (recover t s k v lookahead, none, true)
    | .reduce n =>
      let (k, first?) := reduce t s k v (t.reductions.getD n default)
      act t s v lookahead state rest (first?.or made) k

/-- A keyword as the identifier of its text. -/
def asWord (b : Branch) : Branch := b.relabel ({ · with symbol := .of wordToken })

/-- **Advances a reading by a token:** makes nodes until the token can be taken. A keyword that does not
fit is taken for an identifier if that fits. A token that does not fit pauses the reading. The fuel
bounds the nodes that are made. -/
def feed (t : Table) (s : Source) (v : Nat) : Nat → Branch → Stack → Stack
  | 0, lookahead, k => k.modifyHead v ({ · with status := .paused lookahead })
  | fuel + 1, lookahead, k =>
    let state := k.state v
    let actions := match lookahead.symbol with
      | .of token => t.actions state token
      | _ => []
    match act t s v lookahead state actions none k with
    | (k, _, true) => k
    | (k, some w, false) => feed t s v fuel lookahead (k.replace w v)
    | (k, none, false) =>
      if lookahead.label.word && lookahead.symbol != .of wordToken
          && !(t.actions state wordToken).isEmpty then
        feed t s v fuel (asWord lookahead) k
      else if state == errorState then recover t s k v lookahead
      else
        let size := (k.top v).size
        k.modifyHead v ({ · with status := .paused lookahead, sizeAtError := size })

/-- A bound for the nodes that one token can make. -/
def feedRounds (k : Stack) : Nat := 16 * (k.entries.size + 64)

/-- The next token of a reading. -/
def lookahead (t : Table) (s : Source) (k : Stack) (v : Nat) : Branch :=
  .ofLeaf (nextLeaf t s { state := k.state v, position := k.position v, layout := (k.head v).layout,
                          advanced := k.hasAdvanced v })

/-- **Advances a reading.** -/
def advance (t : Table) (s : Source) (k : Stack) (v : Nat) : Stack :=
  feed t s v k.feedRounds (k.lookahead t s v) k

/-- Advances a reading until it is farther than the readings before it, which are at `last`. -/
def advanceFar (t : Table) (s : Source) (v : Nat) : Nat → Nat → Stack → Stack × Nat
  | 0, last, k => (k, last)
  | fuel + 1, last, k =>
    if k.isActive v then
      let k := k.advance t s v
      let position := k.position v
      if v < k.heads.size && (last < position || 0 < v && position == last) then (k, position)
      else advanceFar t s v fuel last k
    else (k, last)

/-- Advances all readings in turn. -/
def advanceAll (t : Table) (s : Source) : Nat → Nat → Nat → Stack → Stack × Nat
  | 0, _, last, k => (k, last)
  | fuel + 1, v, last, k =>
    if v < k.heads.size then
      let (k, last) := advanceFar t s v (8 * (s.size + 16)) last k
      advanceAll t s fuel (v + 1) last k
    else (k, last)

/-! ## Putting the readings in order -/

/-- What comparing reading `v` with the reading `w` before it leads to: `true` with the new stack if
`v` is gone. -/
def resolve (t : Table) (s : Source) (k : Stack) (w v : Nat) (c : Comparison) : Stack × Bool :=
  match c with
  | .takeFirst => (k.remove v, true)
  | .preferFirst | .neither =>
    match merge? t s k w v with
    | some k => (k, true)
    | none => (k, false)
  | .preferSecond =>
    match merge? t s k w v with
    | some k => (k, true)
    | none =>
      let (a, b) := (k.head w, k.head v)
      ({ k with heads := (k.heads.set! w b).set! v a }, false)
  | .takeSecond => (k, false)

/-- Compares reading `v` with those before it, from `w` on. `own` is how well it does. The answer is
the number of the next reading to look at. -/
def orderOne (t : Table) (s : Source) (own : Standing) : Nat → Nat → Nat → Stack → Stack × Nat
  | 0, _, v, k => (k, v + 1)
  | fuel + 1, w, v, k =>
    if w < v then
      match (k.standing w).compare own with
      | .takeSecond => orderOne t s own fuel w (v - 1) (k.remove w)
      | c => match resolve t s k w v c with
        | (k, true) => (k, v)
        | (k, false) => orderOne t s own fuel (w + 1) v k
    else (k, v + 1)

/-- **Puts the readings in order,** from reading `v` on. `best` is the lowest cost of a reading that is
not in error. -/
def orderAll (t : Table) (s : Source) : Nat → Nat → Option Nat → Stack → Stack × Option Nat
  | 0, _, best, k => (k, best)
  | fuel + 1, v, best, k =>
    match k.heads[v]? with
    | none => (k, best)
    | some { status := .halted, .. } => orderAll t s fuel v best (k.remove v)
    | some _ =>
      let own := k.standing v
      let best := if own.inError then best else some (best.elim own.cost (min own.cost))
      let k := k.clampSize v
      let (k, next) := orderOne t s own (v + 1) 0 v k
      orderAll t s fuel next best k

/-- Lets the best reading recover if it is paused, and drops the other paused ones. -/
def wake (t : Table) (s : Source) : Nat → Nat → Nat → Bool → Option Nat → Stack → Stack × Option Nat
  | 0, _, _, _, best, k => (k, best)
  | fuel + 1, v, count, going, best, k =>
    if count ≤ v then (k, best)
    else
      match (k.head v).status with
      | .paused lookahead =>
        if !going && k.accepted < maxHeads then
          let best := some (k.cost v)
          let k := k.modifyHead v ({ · with status := .active })
          wake t s fuel (v + 1) count true best (enterError t s k v lookahead)
        else wake t s fuel v (count - 1) going best (k.remove v)
      | _ => wake t s fuel (v + 1) count true best k

/-- **Puts the readings in order and drops what need not be followed.** The answer is the lowest cost
of a reading that goes on. -/
def condense (t : Table) (s : Source) (k : Stack) : Stack × Option Nat :=
  let (k, best) := orderAll t s (4 * (k.heads.size + 1)) 0 none k
  let k := { k with heads := k.heads.extract 0 maxHeads }
  wake t s (k.heads.size + 1) 0 k.heads.size false best k

end Stack

/-! ## A whole source -/

/-- Rounds until a tree is complete that no reading can better. The fuel bounds their number. -/
def rounds (t : Table) (s : Source) : Nat → Nat → Stack → Stack
  | 0, _, k => k
  | fuel + 1, last, k =>
    let (k, last) := k.advanceAll t s (2 * (k.heads.size + 64)) 0 last
    let (k, best) := k.condense t s
    let done := match k.finished, best with
      | some tree, some cost => tree.cost < cost
      | some _, none => true
      | none, _ => false
    if done || k.heads.isEmpty then k else rounds t s fuel last k

/-- **The tree of a source.** There always is one, unless the bound on rounds is too low. -/
def parse (t : Table) (s : Source) : Option Branch :=
  (rounds t s (64 * (s.size + 64)) 0 (.initial firstState)).finished

end PyBundle.Parse
