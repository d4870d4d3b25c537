import PyBundle.Parse.Branch

/-!
# The parse stack

Several readings of a source are followed at once. Each has a head, and the stacks below the heads
share their common parts: an entry of the stack may be reached from several heads, and where two
readings have come to the same state at the same place it may lie on several entries. `Stack.pop`
then finds every way down.

Entries are numbered in the order in which they are made and are only ever added, so a link is a
number.
-/

namespace PyBundle.Parse

open Automaton (Table errorState)
open Lexer (LayoutState Source)

/-- **A way down from an entry:** to another entry, over a branch. A link without a branch marks the
place of an error. -/
structure Link where
  below : Nat
  branch : Option Branch
  deriving Inhabited

/-- **An entry of the stack.** Its figures sum up the branches below it. -/
structure Entry where
  state : Nat
  position : Nat
  links : Array Link := #[]
  cost : Nat := 0
  size : Nat := 0
  weight : Int := 0
  deriving Inhabited

/-- Whether a reading goes on, waits with a token that did not fit, or has ended. -/
inductive Status where
  | active
  | paused (lookahead : Branch)
  | halted
  deriving Inhabited

/-- **A state that lies below a head,** how deep, and where its text ends. -/
structure Below where
  position : Nat
  depth : Nat
  state : Nat
  deriving BEq, Repr, Inhabited

/-- **The head of a reading.** -/
structure Head where
  entry : Nat
  /-- The size of the stack when an error was last met. -/
  sizeAtError : Nat := 0
  /-- The state of the layout scanner after the last layout token. -/
  layout : Option LayoutState := none
  status : Status := .active
  /-- The states below it when an error was met, if recovery is under way. -/
  summary : Option (Array Below) := none
  deriving Inhabited

/-- **The stack with its heads,** and the best complete tree so far. -/
structure Stack where
  entries : Array Entry
  heads : Array Head
  finished : Option Branch := none
  /-- How many complete trees were found. -/
  accepted : Nat := 0
  deriving Inhabited

/-- The most readings that are followed beyond one step. -/
def maxHeads : Nat := 6

namespace Stack

/-- The stack before anything has been read. -/
def initial (state : Nat) : Stack := { entries := #[{ state, position := 0 }], heads := #[{ entry := 0 }] }

def head (k : Stack) (v : Nat) : Head := k.heads.getD v default

def entry (k : Stack) (n : Nat) : Entry := k.entries.getD n default

def top (k : Stack) (v : Nat) : Entry := k.entry (k.head v).entry

def state (k : Stack) (v : Nat) : Nat := (k.top v).state

def position (k : Stack) (v : Nat) : Nat := (k.top v).position

def modifyHead (k : Stack) (v : Nat) (f : Head → Head) : Stack :=
  { k with heads := k.heads.modify v f }

/-- The stack without a head. -/
def remove (k : Stack) (v : Nat) : Stack := { k with heads := k.heads.eraseIdxIfInBounds v }

def halt (k : Stack) (v : Nat) : Stack := k.modifyHead v ({ · with status := .halted })

def isActive (k : Stack) (v : Nat) : Bool :=
  match k.heads[v]? with
  | some { status := .active, .. } => true
  | _ => false

def isPaused (k : Stack) (v : Nat) : Bool :=
  match k.heads[v]? with
  | some { status := .paused _, .. } => true
  | _ => false

/-- **A branch is put on a reading,** which then is in a state. No branch marks an error. -/
def push (t : Table) (k : Stack) (v : Nat) (b : Option Branch) (state : Nat) : Stack :=
  let below := (k.head v).entry
  let e := k.entry below
  let link : Link := ⟨below, b⟩
  let new : Entry := match b with
    | some b => { state, position := b.label.stop, links := #[link], cost := e.cost + b.cost,
                  size := e.size + b.size t, weight := e.weight + b.weight }
    | none => { e with state, links := #[link] }
  let n := k.entries.size
  let k := { k with entries := k.entries.push new }
  k.modifyHead v fun h =>
    { h with entry := n, sizeAtError := if b.isSome then h.sizeAtError else new.size }

/-! ## Merging -/

/-- **Whether two branches count as one on the stack:** both have errors, or they have the same symbol
and stretch, and as many parts. -/
def alike (s : Source) : Option Branch → Option Branch → Bool
  | none, none => true
  | some a, some b =>
    let (l, m) := (a.label, b.label)
    l.symbol == m.symbol && (0 < a.cost && 0 < b.cost
      || s.bytes l.padding l.start == s.bytes m.padding m.start
        && s.bytes l.start l.stop == s.bytes m.start m.stop
        && a.parts.length == b.parts.length && l.extra == m.extra && l.layout == m.layout)
  | _, _ => false

def weightOf (b : Option Branch) : Int := b.elim 0 Branch.weight

/-- The most ways down that an entry keeps. -/
def maxLinks : Nat := 8

/-- **Adds a way down to an entry.** If there is one like it to the same entry, the heavier branch is
kept; if there is one like it to an entry at the same state and place, the ways down from there are
joined. The fuel bounds how deep that goes. -/
def addLink (t : Table) (s : Source) : Nat → Array Entry → Nat → Link → Array Entry
  | 0, es, _, _ => es
  | fuel + 1, es, n, link =>
    let e := es.getD n default
    let below := es.getD link.below default
    if link.below == n then es
    else
      let like := (Array.range e.links.size).toList.filter fun i =>
        alike s (e.links.getD i default).branch link.branch
      let same? := like.find? fun i =>
        let other := (e.links.getD i default).below
        let o := es.getD other default
        other == link.below
          || o.state == below.state && o.position == below.position && o.cost == below.cost
      let total := below.weight + weightOf link.branch
      match same? with
      | some i =>
        let old := e.links.getD i default
        if old.below == link.below then
          if weightOf old.branch < weightOf link.branch then
            es.set! n { e with links := e.links.set! i link, weight := total }
          else es
        else
          let es := below.links.foldl (fun es l => addLink t s fuel es old.below l) es
          es.modify n fun e => { e with weight := max e.weight total }
      | none =>
        if e.links.size == maxLinks then es
        else
          let size := below.size + link.branch.elim 0 (·.size t)
          es.set! n { e with links := e.links.push link, size := max e.size size,
                             weight := max e.weight total }

/-- Whether two readings have come to the same point. -/
def canMerge (k : Stack) (v w : Nat) : Bool :=
  let (e, f) := (k.top v, k.top w)
  k.isActive v && k.isActive w && e.state == f.state && e.position == f.position
    && e.cost == f.cost && (k.head v).layout == (k.head w).layout

/-- **Makes two readings one,** if they have come to the same point. -/
def merge? (t : Table) (s : Source) (k : Stack) (v w : Nat) : Option Stack :=
  if k.canMerge v w then
    let n := (k.head v).entry
    let entries := (k.top w).links.foldl (fun es l => addLink t s (k.entries.size + 1) es n l)
      k.entries
    let k := ({ k with entries } : Stack).modifyHead v fun h =>
      let e := entries.getD n default
      if e.state == errorState then { h with sizeAtError := e.size } else h
    some (k.remove w)
  else none

/-! ## Popping -/

/-- **A way down that is being followed:** where it is, the branches it went over with the last one
first, and how many of them count. -/
structure Path where
  entry : Nat
  branches : List Branch := []
  depth : Nat := 0
  deriving Inhabited

/-- The path over one more link. Extras do not count. -/
def Path.over (p : Path) (l : Link) : Path :=
  match l.branch with
  | some b => ⟨l.below, b :: p.branches, if b.isExtra then p.depth else p.depth + 1⟩
  | none => ⟨l.below, p.branches, p.depth + 1⟩

/-- Whether a path is one of those looked for, and whether it goes on. -/
structure Verdict where
  takes : Bool
  goesOn : Bool

/-- The most paths that are followed at once. -/
def maxPaths : Nat := 64

/-- One step of all paths: what was taken, and the paths that go on. A path that branches stays in its
place with the first link, and the others come last. -/
def stepPaths (k : Stack) (judge : Path → Verdict) (paths : List Path) : List Path × List Path :=
  let (taken, stay, more, _) := paths.foldl (fun (taken, stay, more, count) p =>
    let verdict := judge p
    let taken := if verdict.takes then p :: taken else taken
    let links := (k.entry p.entry).links
    if verdict.goesOn && !links.isEmpty then
      let others := ((links.toList.drop 1).take (maxPaths - count)).map p.over
      (taken, p.over (links.getD 0 default) :: stay, more ++ others, count + others.length)
    else (taken, stay, more, count - 1)) ([], [], [], paths.length)
  (taken.reverse, stay.reverse ++ more)

/-- **All paths that are taken,** in order. The fuel bounds their length. -/
def paths (k : Stack) (judge : Path → Verdict) : Nat → List Path → List Path
  | 0, _ => []
  | _ + 1, [] => []
  | fuel + 1, ps =>
    let (taken, next) := stepPaths k judge ps
    taken ++ paths k judge fuel next

/-- Paths by the entry they end at, in order of appearance. -/
def byEntry (ps : List Path) : List (Nat × List (List Branch)) :=
  ps.foldl (fun groups p =>
    if groups.any (·.1 == p.entry) then
      groups.map fun g => if g.1 == p.entry then (g.1, g.2 ++ [p.branches]) else g
    else groups ++ [(p.entry, [p.branches])]) []

/-- **Follows a reading down.** Each entry where a path is taken becomes the top of a new head, and
the answer lists the branches above it: one list for each path. -/
def popPaths (k : Stack) (v : Nat) (judge : Path → Verdict) :
    Stack × List (Nat × List (List Branch)) :=
  let h := k.head v
  let groups := byEntry (k.paths judge (k.entries.size + 1) [⟨h.entry, [], 0⟩])
  let first := k.heads.size
  let heads := groups.foldl (fun hs g =>
    hs.push { entry := g.1, sizeAtError := h.sizeAtError, layout := h.layout }) k.heads
  ({ k with heads }, groups.mapIdx fun i g => (first + i, g.2))

/-- Pops a number of branches. -/
def pop (k : Stack) (v count : Nat) : Stack × List (Nat × List (List Branch)) :=
  k.popPaths v fun p => ⟨p.depth == count, p.depth != count⟩

/-! ## Heads -/

/-- **Head `w` takes the place of head `v`.** A summary that only `v` has is kept. -/
def replace (k : Stack) (w v : Nat) : Stack :=
  if w == v then k
  else
    let h := k.head w
    let summary := h.summary.or (k.head v).summary
    ({ k with heads := k.heads.set! v { h with summary } } : Stack).remove w

/-- A second head at the same place. -/
def copyHead (k : Stack) (v : Nat) : Stack :=
  { k with heads := k.heads.push { k.head v with summary := none } }

/-- Whether a head stands right behind the mark of an error. -/
def isAtMark (k : Stack) (v : Nat) : Bool :=
  let e := k.top v
  e.state == errorState && (e.links[0]?).any (·.branch.isNone)

/-- **The cost of a reading.** One that has just met an error pays for recovering from it. -/
def cost (k : Stack) (v : Nat) : Nat :=
  (k.top v).cost + (if k.isPaused v || k.isAtMark v then Branch.recoveryCost else 0)

/-- What a reading has read since its last error. -/
def sizeSinceError (k : Stack) (v : Nat) : Nat := (k.top v).size - (k.head v).sizeAtError

/-- The size at the last error is never more than the size now. -/
def clampSize (k : Stack) (v : Nat) : Stack :=
  let size := (k.top v).size
  k.modifyHead v fun h => { h with sizeAtError := min h.sizeAtError size }

/-- **Whether a reading has read any text since its last error.** The fuel bounds how deep branches
without text are passed over. -/
def hasAdvanced (k : Stack) (v : Nat) : Bool :=
  let h := k.head v
  if (k.entry h.entry).cost == 0 then true else go h.sizeAtError k.entries.size h.entry
where
  go (sizeAtError : Nat) : Nat → Nat → Bool
    | 0, _ => false
    | fuel + 1, n =>
      let e := k.entry n
      match (e.links[0]?).bind fun l => l.branch.map (l.below, ·) with
      | none => false
      | some (below, b) =>
        if b.label.padding < b.label.stop then true
        else if sizeAtError < e.size && b.cost == 0 then go sizeAtError fuel below
        else false

end Stack

end PyBundle.Parse
