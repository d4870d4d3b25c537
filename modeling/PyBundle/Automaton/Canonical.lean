import PyBundle.Automaton.Item

/-!
# The canonical automaton

The states of the canonical LR(1) automaton of a grammar: a state is a set of items with the tokens
that may follow each, and it says for every token what to do. Where a state would do two things, the
grammar's decorations choose: the higher precedence wins, and on equal precedence the associativity
does. What they leave open stays open, and the parser follows both.

State 0 is kept for recovery from errors, where any token is taken; state 1 is the first one.
-/

namespace PyBundle.Automaton

open Grammar (Assoc Normal Production Step TokenSet)

/-- **How a finished production becomes a node:** its symbol, how many nodes it takes, its weight, and
the names under which they are shown. -/
structure Reduction where
  symbol : Nat
  count : Nat
  weight : Int
  shown : List (Option String)
  deriving BEq, Hashable, Repr, Inhabited

/-- **What a state does on a token.** -/
inductive Action where
  /-- Take the token and go to a state. A `rerun` only lengthens a repetition in a second way and is
  not followed. -/
  | shift (state : Nat) (rerun : Bool)
  /-- Take the token and stay: it may stand anywhere. -/
  | stay
  /-- Make a node of what was read last. -/
  | reduce (reduction : Nat)
  /-- The text is complete. -/
  | accept
  /-- Take the token as part of an error. -/
  | recover
  deriving BEq, DecidableEq, Hashable, Repr, Inhabited

/-- **The items of a state,** by number and in order, each with the tokens that may follow it. -/
abbrev Kernel := List (Nat × TokenSet)

/-- **A state:** what it does on each token, and where it goes after each rule's node (0 is nowhere).
States with equal items but other following tokens have the same core. -/
structure State where
  core : Nat
  actions : Array (List Action)
  gotos : Array Nat
  deriving Inhabited

/-- **What is known of a grammar while its automaton is built.** -/
structure Basis where
  grammar : Normal
  first : Array TokenSet
  items : Array Item
  /-- The number of each item's next item. -/
  advance : Array Nat
  expansions : Array (List Expansion)
  /-- The item that expects a whole text. -/
  start : Nat
  deriving Inhabited

namespace Basis

/-- Numbers the next item of each item. The fuel is at least the number of items. -/
def advanceAll : Nat → Items → Array Nat → Items × Array Nat
  | 0, items, out => (items, out)
  | fuel + 1, items, out =>
    if out.size < items.all.size then
      let (items, n) := items.number (items.get out.size).advance
      advanceAll fuel items (out.push n)
    else (items, out)

def of (g : Normal) : Basis :=
  let first := g.firstSets
  let (items, expansions) := Automaton.expansions g first {}
  let (items, start) :=
    items.number ⟨0, none, 0, none, none, [], [⟨g.tokens.size, none, none, none⟩]⟩
  let marks := g.productions.foldl (fun n ps => ps.foldl (fun n p => n + p.steps.length + 1) n) 2
  let (items, advance) := advanceAll marks items #[]
  { grammar := g, first, items := items.all, advance, expansions, start }

def item (b : Basis) (n : Nat) : Item := b.items.getD n default

/-- Whether a token can come next where an item stands. -/
def canShift (b : Basis) (i : Item) (t : Nat) : Bool :=
  match i.expected with
  | [] => false
  | s :: _ => (b.first.getD s.symbol .empty).contains t

/-- **All items of a state:** those of its kernel and their expansions. -/
def close (b : Basis) (k : Kernel) : Kernel :=
  let add (acc : Array TokenSet × List Nat) (n : Nat) (s : TokenSet) : Array TokenSet × List Nat :=
    let (sets, touched) := acc
    let old := sets.getD n .empty
    (sets.set! n (old.union s), if old.isEmpty then n :: touched else touched)
  let (sets, touched) := k.foldl (fun acc (n, following) =>
    let acc := add acc n following
    match (b.item n).expected with
    | [] => acc
    | s :: rest =>
      match b.grammar.ruleOf? s.symbol with
      | none => acc
      | some r =>
        let after := match rest with
          | t :: _ => b.first.getD t.symbol .empty
          | [] => following
        (b.expansions.getD r []).foldl (fun acc e =>
          add acc e.item (if e.inherits then e.following.union after else e.following)) acc)
    (Array.replicate b.items.size .empty, [])
  touched.map fun n => (n, sets.getD n .empty)

end Basis

/-! ## Competing actions -/

/-- **What a state would do on one token:** its actions, the precedence and the associativities of
those that make nodes, and whether several actions compete. -/
structure Entry where
  actions : List Action := []
  level : Int := 0
  assocs : List (Option Assoc) := []
  competing : Bool := false
  deriving Inhabited

namespace Entry

/-- A node can be made: it drives out nodes of lower precedence and gives way to higher ones. -/
def addReduce (e : Entry) (a : Action) (i : Item) : Entry :=
  if e.actions.isEmpty || e.level < i.level then
    { actions := [a], level := i.level, assocs := [i.assoc] }
  else if i.level < e.level then e
  else { e with actions := e.actions ++ [a], assocs := i.assoc :: e.assocs, competing := true }

/-- The token can be taken. -/
def addShift (e : Entry) (a : Action) : Entry :=
  { e with actions := e.actions ++ [a], competing := e.competing || !e.actions.isEmpty }

/-- **The choice between taking a token and making a node.** `shifting` are the items that can take
the token, `finished` those that make a node. If all of them belong to one repetition, the repetition
is lengthened in the one way only. -/
def settle (b : Basis) (e : Entry) (shifting finished : List Item) : List Action :=
  match e.actions.getLast? with
  | some (.shift state _) =>
    let items := finished ++ shifting
    let auxiliary (i : Item) := i.rule.any fun r =>
      b.grammar.auxiliary.getD (b.grammar.tokens.size + r) false
    match items with
    | i :: rest =>
      if auxiliary i && rest.all (·.rule == i.rule) then
        e.actions.dropLast ++ [.shift state true]
      else
        let more := shifting.any (e.level < ·.level)
        let less := shifting.any (·.level < e.level)
        if more && !less then [.shift state false]
        else if less && !more then e.actions.dropLast
        else if more || less then e.actions
        else if e.assocs.all (· == some .left) then e.actions.dropLast
        else if e.assocs.all (· == some .right) then [.shift state false]
        else e.actions
    | [] => e.actions
  | _ => e.actions

end Entry

/-! ## Building the states -/

/-- **An automaton under construction:** the kernels of all states known so far, of which the first
ones have been worked out. -/
structure Build where
  kernels : Array Kernel := #[]
  numbers : Std.HashMap Kernel Nat := {}
  cores : Std.HashMap (List Nat) Nat := {}
  reductions : Array Reduction := #[]
  reductionNumbers : Std.HashMap Reduction Nat := {}
  states : Array State := #[]

namespace Build

/-- The number of the state with a kernel. -/
def stateOf (bd : Build) (k : Kernel) : Build × Nat :=
  match bd.numbers[k]? with
  | some n => (bd, n)
  | none => ({ bd with kernels := bd.kernels.push k, numbers := bd.numbers.insert k bd.kernels.size },
      bd.kernels.size)

/-- The number of a reduction. -/
def reductionOf (bd : Build) (r : Reduction) : Build × Nat :=
  match bd.reductionNumbers[r]? with
  | some n => (bd, n)
  | none => ({ bd with reductions := bd.reductions.push r,
                       reductionNumbers := bd.reductionNumbers.insert r bd.reductions.size },
      bd.reductions.size)

/-- The number of a core. -/
def coreOf (bd : Build) (k : Kernel) : Build × Nat :=
  let core := k.map (·.1)
  match bd.cores[core]? with
  | some n => (bd, n)
  | none => ({ bd with cores := bd.cores.insert core bd.cores.size }, bd.cores.size)

/-- Items in order, with those that are listed twice made one. -/
def toKernel (items : List (Nat × TokenSet)) : Kernel :=
  (items.mergeSort (fun x y => x.1 ≤ y.1)).foldr (fun (n, s) rest =>
    match rest with
    | (m, t) :: more => if n == m then (n, s.union t) :: more else (n, s) :: rest
    | [] => [(n, s)]) []

/-- The order in which finished items make their nodes. -/
def earlier (x y : Item × TokenSet) : Bool :=
  if x.1.read == y.1.read then x.1.rule.getD 0 ≤ y.1.rule.getD 0 else x.1.read < y.1.read

/-- The action that a finished item stands for. -/
def actionOf (b : Basis) (bd : Build) (i : Item) : Build × Action :=
  match i.rule with
  | none => (bd, .accept)
  | some r =>
    let trailing := i.shown.reverse.dropWhile (·.isNone)
    let (bd, n) := bd.reductionOf ⟨b.grammar.tokens.size + r, i.read, i.weight, trailing.reverse⟩
    (bd, .reduce n)

/-- **Works out the state with the given kernel.** -/
def workOut (b : Basis) (bd : Build) (k : Kernel) : Build :=
  let g := b.grammar
  let count := g.tokens.size
  let closed := b.close k
  let finished := ((closed.filter fun x => (b.item x.1).expected.isEmpty).map
    fun x => (b.item x.1, x.2)).mergeSort earlier
  let successors : Array Kernel := closed.foldl (fun out x =>
    match (b.item x.1).next? with
    | some s => out.modify s ((b.advance.getD x.1 0, x.2) :: ·)
    | none => out) (Array.replicate g.names.size [])
  -- nodes to make
  let (bd, entries) := finished.foldl (fun (bd, entries) x =>
    let (bd, action) := actionOf b bd x.1
    (bd, (x.2.toList count).foldl (fun entries t =>
      entries.modify t (·.addReduce action x.1)) entries))
    (bd, Array.replicate count ({} : Entry))
  -- tokens to take
  let (bd, entries) := (List.range count).foldl (fun (bd, entries) t =>
    match successors.getD t [] with
    | [] => (bd, entries)
    | items =>
      let (bd, n) := stateOf bd (toKernel items)
      (bd, entries.modify t (·.addShift (.shift n false)))) (bd, entries)
  -- nodes to go on after
  let (bd, gotos) := (List.range g.productions.size).foldl (fun (bd, gotos) r =>
    match successors.getD (count + r) [] with
    | [] => (bd, gotos)
    | items =>
      let (bd, n) := stateOf bd (toKernel items)
      (bd, gotos.set! r n)) (bd, Array.replicate g.productions.size 0)
  let actions := entries.mapIdx fun t e =>
    let actions :=
      if e.competing then
        let shifting := (k.map (b.item ·.1)).filter fun i => 0 < i.read && b.canShift i t
        e.settle b shifting ((finished.filter (·.2.contains t)).map (·.1))
      else e.actions
    if actions.isEmpty && g.extras.contains t then [.stay] else actions
  let (bd, core) := coreOf bd k
  { bd with states := bd.states.push { core, actions, gotos } }

/-- Works out states until all are known. The fuel bounds their number. -/
def workOutAll (b : Basis) : Nat → Build → Build
  | 0, bd => bd
  | fuel + 1, bd =>
    match bd.kernels[bd.states.size]? with
    | none => bd
    | some k => workOutAll b fuel (workOut b bd k)

end Build

/-- The largest number of states that an automaton is built with. -/
def stateBound : Nat := 65536

/-- **The states of the canonical automaton and its reductions.** In state 0 every token that `held`
does not name is taken as part of an error. -/
def canonical (b : Basis) (held : Nat → Bool) : Array State × Array Reduction :=
  let error : State :=
    { core := 0
      actions := (Array.range b.grammar.tokens.size).map fun t => if held t then [] else [.recover]
      gotos := Array.replicate b.grammar.productions.size 0 }
  let bd : Build := { kernels := #[[], [(b.start, .single 0)]], cores := {([], 0)},
                      states := #[error] }
  let bd := { bd with numbers := bd.numbers.insert [(b.start, .single 0)] 1 }
  let bd := bd.workOutAll b stateBound
  (bd.states, bd.reductions)

end PyBundle.Automaton
