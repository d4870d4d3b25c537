import PyBundle.Parse.Stack

/-!
# Reductions and the order of readings

`Stack.reduce` makes a node of the branches on top of a reading. Since a reading may have several
ways down, one reduction can give several readings, and readings that come to the same point are
merged. `Standing.compare` says which of two readings is the better one, and `Stack.betterExists`
whether some reading is better than a plan to recover.
-/

namespace PyBundle.Parse

open Automaton (Reduction Table errorState)
open Lexer (Source)

/-! ## Reductions -/

/-- How far the number of readings may exceed the limit within one step. -/
def spareHeads : Nat := 4

/-- The node of a reduction: of several lists of parts the one with the best reading, and the extras
behind it. -/
def bestNode (t : Table) (s : Source) (r : Reduction) (position : Nat) (ways : List (List Branch)) :
    Branch × List Branch :=
  let make (branches : List Branch) : Branch × List Branch :=
    let (parts, extras) := Branch.splitExtras branches
    (Branch.node t s (.of r.symbol) r.shown parts position, extras)
  match ways with
  | [] => make []
  | w :: ws => ws.foldl (fun best w =>
      let other := make w
      if best.1.prefersSecond other.1 then other else best) (make w)

namespace Stack

/-- The first reading before `w`, other than `v`, that `w` merges into. -/
def mergeBefore? (t : Table) (s : Source) (k : Stack) (v w : Nat) : Option Stack :=
  (List.range w).findSome? fun j => if j == v then none else merge? t s k j w

/-- **Makes a node on a reading.** The new readings come behind all others, and the answer is the first
of them. Readings beyond the limit are dropped. -/
def reduce (t : Table) (s : Source) (k : Stack) (v : Nat) (r : Reduction) : Stack × Option Nat :=
  let before := k.heads.size
  let (k, groups) := k.pop v r.count
  let (k, _) := groups.foldl (fun (k, removed) (w, ways) =>
    let w := w - removed
    if maxHeads + spareHeads < w then (k.remove w, removed + 1)
    else
      let (node, extras) := bestNode t s r (k.position w) ways
      let next := t.next (k.state w) r.symbol
      let node := node.relabel fun l => { l with weight := l.weight + r.weight }
      let k := extras.foldl (fun k b => k.push t w (some b) next) (k.push t w (some node) next)
      match mergeBefore? t s k v w with
      | some k => (k, removed + 1)
      | none => (k, removed)) (k, 0)
  (k, if before < k.heads.size then some before else none)

end Stack

/-! ## Comparing readings -/

/-- **How well a reading does.** -/
structure Standing where
  cost : Nat
  /-- What was read since the last error. -/
  progress : Nat
  weight : Int
  inError : Bool
  deriving Repr, Inhabited

/-- **What a comparison of two readings says:** one is better by so much that the other can be given
up, or it is only to be preferred, or there is no difference. -/
inductive Comparison where
  | takeFirst
  | preferFirst
  | neither
  | preferSecond
  | takeSecond
  deriving BEq, DecidableEq, Repr, Inhabited

/-- A difference in cost beyond this settles a comparison, where it counts more often the more was
read. -/
def decisiveCost : Nat := 18 * Branch.skippedNodeCost

def Standing.compare (a b : Standing) : Comparison :=
  if !a.inError && b.inError then (if a.cost < b.cost then .takeFirst else .preferFirst)
  else if a.inError && !b.inError then (if b.cost < a.cost then .takeSecond else .preferSecond)
  else if a.cost < b.cost then
    if decisiveCost < (b.cost - a.cost) * (1 + a.progress) then .takeFirst else .preferFirst
  else if b.cost < a.cost then
    if decisiveCost < (a.cost - b.cost) * (1 + b.progress) then .takeSecond else .preferSecond
  else if b.weight < a.weight then .preferFirst
  else if a.weight < b.weight then .preferSecond
  else .neither

namespace Stack

/-- How well a reading does. One that is paused will at least skip a node. -/
def standing (k : Stack) (v : Nat) : Standing :=
  let paused := k.isPaused v
  { cost := k.cost v + (if paused then Branch.skippedNodeCost else 0)
    progress := k.sizeSinceError v
    weight := (k.top v).weight
    inError := paused || k.state v == errorState }

/-- **Whether it is no use to go on with a reading at a cost:** a complete tree costs no more, or
another reading that is at least as far does better. -/
def betterExists (k : Stack) (v cost : Nat) : Bool :=
  if k.finished.any (·.cost ≤ cost) then true
  else
    let own : Standing :=
      { cost, progress := k.sizeSinceError v, weight := (k.top v).weight, inError := false }
    (List.range k.heads.size).any fun w =>
      w != v && k.isActive w && k.position v ≤ k.position w
        && match own.compare (k.standing w) with
          | .takeSecond => true
          | .preferSecond => k.canMerge w v
          | _ => false

end Stack

end PyBundle.Parse
