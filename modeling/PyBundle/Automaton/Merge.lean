import PyBundle.Automaton.Canonical
import PyBundle.Lexer.Overlap

/-!
# Merging states

The canonical automaton has many states that differ only in the tokens that may follow their items.
Such states become one where that is safe: wherever both act they must act alike, and neither may get
a token that the lexer would then confuse with one it already looks for. A merged state acts on the
tokens of all its parts. So it may make a node before it finds that a token does not fit; it never
takes a token that its parts would not have taken.

Merging goes by groups of states. At first a group is a core; a group is split as long as two of its
states disagree, and the split parts are looked at again, until every group agrees.
-/

namespace PyBundle.Automaton

open Grammar (Normal Token TokenSet)
open Lexer (Overlaps)

/-! ## Keywords -/

/-- Whether a text has the form of an identifier. -/
def isWord (text : String) : Bool :=
  match text.toList with
  | [] => false
  | c :: cs => Text.isIdentifierStart c && cs.all Text.isIdentifierContinue

/-- **Whether a token is a keyword:** a fixed word that the lexer finds as an identifier first. A word
is none if another fixed token goes on after it with something else. -/
def isKeyword (g : Normal) (t : Nat) : Bool :=
  match g.tokens[t]? with
  | some (.fixed text) => isWord text && g.tokens.all fun u => match u with
      | .fixed longer => longer == text || !longer.startsWith text || isWord longer
      | _ => true
  | _ => false

/-- The number of the identifier token. -/
def wordToken : Nat := 1

/-- **What the tokens of a grammar do to each other in one state.** -/
structure Neighbours where
  /-- The tokens that no state may get by merging: the layout scanner acts on their presence. -/
  fixed : TokenSet
  /-- For each token, the tokens besides which it may not be looked for. -/
  against : Array TokenSet
  deriving Inhabited

def Neighbours.of (g : Normal) (o : Overlaps) : Neighbours :=
  let count := g.tokens.size
  let keyword := (Array.range count).map (isKeyword g)
  let sameWord := fun t u => t == wordToken && keyword.getD u false
    || u == wordToken && keyword.getD t false
  { fixed := .ofList g.layoutValid
    against := (Array.range count).map fun t =>
      .ofList ((List.range count).filter fun u => !sameWord t u && o.conflict t u) }

/-! ## Groups -/

/-- **A division of the states into groups:** the members of each group, and the group of each
state. -/
structure Groups where
  members : Array (List Nat)
  groupOf : Array Nat
  deriving Inhabited

namespace Groups

/-- The members of a group that agree with those before them, and the others. -/
def divide (disagree : Nat → Nat → Bool) : List Nat → List Nat × List Nat
  | [] => ([], [])
  | s :: rest =>
    let parts := rest.partition (disagree s)
    let (kept, out) := divide disagree parts.2
    (s :: kept, parts.1 ++ out)
termination_by l => l.length
decreasing_by
  simp only [List.partition_eq_filter_filter, List.length_cons]
  exact Nat.lt_succ_of_le (List.length_filter_le _ _)

/-- **Splits every group whose members disagree,** the new ones too. The fuel bounds the number of
groups. -/
def split (disagree : Groups → Nat → Nat → Bool) : Nat → Nat → Groups → Groups
  | 0, _, gs => gs
  | fuel + 1, i, gs =>
    match gs.members[i]? with
    | none => gs
    | some group =>
      match divide (disagree gs) group with
      | (_, []) => split disagree fuel (i + 1) gs
      | (kept, out) =>
        split disagree fuel (i + 1)
          { members := (gs.members.set! i kept).push out
            groupOf := out.foldl (fun g s => g.set! s gs.members.size) gs.groupOf }

/-- Splits until the number of groups stays the same. -/
def splitAll (disagree : Groups → Nat → Nat → Bool) (states : Nat) : Nat → Groups → Groups
  | 0, gs => gs
  | fuel + 1, gs =>
    let next := split disagree (2 * states) 0 gs
    if next.members.size == gs.members.size then gs else splitAll disagree states fuel next

/-- The groups that the cores make. -/
def ofCores (states : Array State) : Groups :=
  let cores := states.foldl (fun n s => max n (s.core + 1)) 0
  { members := states.foldr (fun s (i, out) => (i - 1, out.modify s.core ((i - 1) :: ·)))
      (states.size, Array.replicate cores []) |>.2
    groupOf := states.map (·.core) }

end Groups

/-- The tokens on which a state acts. -/
def State.tokens (s : State) : TokenSet :=
  ⟨(s.actions.foldl (fun (mask, bit) a => (if a.isEmpty then mask else mask ||| bit, 2 * bit))
    (0, 1)).1⟩

/-- Whether two states act alike on a token, where they go to states of one group. -/
def sameActions (groupOf : Array Nat) : List Action → List Action → Bool
  | [], [] => true
  | .shift s r :: as, .shift t q :: bs =>
    groupOf.getD s 0 == groupOf.getD t 0 && r == q && sameActions groupOf as bs
  | a :: as, b :: bs => a == b && sameActions groupOf as bs
  | _, _ => false

/-- The state that a list of actions ends by going to. -/
def target? (as : List Action) : Option Nat :=
  match as.getLast? with
  | some (.shift s _) => some s
  | _ => none

/-- **Whether two states may not become one:** one has a token that the other must not get, or they
act differently. -/
def clash (n : Neighbours) (states : Array State) (tokens : Array TokenSet) (count : Nat)
    (gs : Groups) (i j : Nat) : Bool :=
  let (s, t) := (tokens.getD i .empty, tokens.getD j .empty)
  let (onlyS, onlyT) := (s.diff t, t.diff s)
  onlyS.meets n.fixed || onlyT.meets n.fixed
    || (onlyS.toList count).any (fun u => (n.against.getD u .empty).meets t)
    || (onlyT.toList count).any (fun u => (n.against.getD u .empty).meets s)
    || (List.range count).any fun u =>
      let a := ((states.getD i default).actions.getD u [])
      let b := ((states.getD j default).actions.getD u [])
      !a.isEmpty && !b.isEmpty && !sameActions gs.groupOf a b

/-- Whether two states go to different groups after the same symbol. -/
def diverge (states : Array State) (count : Nat) (gs : Groups) (i j : Nat) : Bool :=
  let (s, t) := (states.getD i default, states.getD j default)
  let group := fun n => gs.groupOf.getD n 0
  (List.range count).any (fun u =>
    match target? (s.actions.getD u []), target? (t.actions.getD u []) with
    | some p, some q => group p != group q
    | _, _ => false)
  || (List.range s.gotos.size).any fun r =>
    let (p, q) := (s.gotos.getD r 0, t.gotos.getD r 0)
    p != 0 && q != 0 && group p != group q

/-- The state that a group becomes. -/
def mergeGroup (states : Array State) (groupOf : Array Nat) (core : Nat) (group : List Nat) : State :=
  let regroup (a : Action) : Action :=
    match a with
    | .shift s r => .shift (groupOf.getD s 0) r
    | a => a
  let both := group.foldl (fun (s : State) i =>
    let t := states.getD i default
    if s.actions.isEmpty then t
    else { s with actions := s.actions.mapIdx fun u a =>
                    if a.isEmpty then t.actions.getD u [] else a
                  gotos := s.gotos.mapIdx fun r g => if g == 0 then t.gotos.getD r 0 else g })
    ⟨core, #[], #[]⟩
  { core
    actions := both.actions.map (·.map regroup)
    gotos := both.gotos.map fun g => if g == 0 then 0 else groupOf.getD g 0 }

/-- **The merged states.** -/
def mergeStates (g : Normal) (o : Overlaps) (states : Array State) : Array State :=
  let count := g.tokens.size
  let n := Neighbours.of g o
  let tokens := states.map State.tokens
  let gs := Groups.split (clash n states tokens count) (2 * states.size) 0 (Groups.ofCores states)
  let gs := Groups.splitAll (diverge states count) states.size states.size gs
  gs.members.mapIdx fun i group => mergeGroup states gs.groupOf i group

/-! ## Passing over hidden nodes -/

/-- The symbol that a state only ever renames what was read to, if that node is hidden anyway. -/
def passesTo? (hidden : Nat → Bool) (reductions : Array Reduction) (s : State) : Option Nat :=
  let merge : Option (Option Nat) → Action → Option (Option Nat) := fun seen a =>
    match seen, a with
    | some seen, .stay => some seen
    | some seen, .reduce r =>
      match reductions[r]? with
      | some ⟨symbol, 1, 0, []⟩ =>
        if hidden symbol && seen.all (· == symbol) then some (some symbol) else none
      | _ => none
    | _, _ => none
  (s.actions.foldl (fun seen as => as.foldl merge seen) (some none)).join

/-- **Leads past every state that only makes a hidden node of one part:** a state that would go there
goes at once where it would go after that node. -/
def passOver (g : Normal) (reductions : Array Reduction) (states : Array State) : Array State :=
  let renamed := g.productions.toList.flatMap fun ps => ps.flatMap fun p =>
    (p.steps.filter (·.shown.isSome)).map (·.symbol)
  let hidden := fun n =>
    !g.visible.getD n true && !g.gathered.contains n && !renamed.contains n
  let passes := states.map (passesTo? hidden reductions)
  let forward (s : State) : State :=
    let rec follow : Nat → Nat → Nat
      | 0, n => n
      | fuel + 1, n =>
        match passes.getD n none with
        | none => n
        | some symbol =>
          match s.gotos.getD (symbol - g.tokens.size) 0 with
          | 0 => n
          | next => if next == n then n else follow fuel next
    { s with
      actions := s.actions.map (·.map fun a => match a with
        | .shift n r => .shift (follow states.size n) r
        | a => a)
      gotos := s.gotos.map fun n => if n == 0 then 0 else follow states.size n }
  states.map forward

end PyBundle.Automaton
