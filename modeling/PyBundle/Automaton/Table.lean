import PyBundle.Automaton.Merge
import PyBundle.Lexer.Layout

/-!
# Parse tables

What the parser needs of a grammar: for each state what to do on each token, where to go after each
node, and which tokens the lexer looks for. States that look for nearly the same tokens share one set
of them, a mode of the lexer, as long as no token of one gets in the way of the other's.
-/

namespace PyBundle.Automaton

open Grammar (Normal Token TokenSet)
open Lexer (Overlaps Wanted)

/-- **A parse table.** -/
structure Table where
  grammar : Normal
  reductions : Array Reduction
  states : Array State
  /-- The tokens that the lexer looks for in each mode, by number. -/
  modes : Array (List (Nat × Token))
  /-- The mode of each state. -/
  modeOf : Array Nat
  /-- What each state asks of the layout scanner, if anything. -/
  wanted : Array (Option Wanted)
  /-- The keywords by text. -/
  keywords : List (String × Nat)
  deriving Inhabited

/-- The state for recovery from errors. -/
def errorState : Nat := 0

/-- The first state. -/
def firstState : Nat := 1

namespace Table

/-! ## Lexer modes -/

/-- Which tokens two states may look for together. -/
structure Company where
  /-- For each token, the tokens whose texts it takes over. -/
  against : Array TokenSet
  /-- For each token, the tokens that it goes on after or that go on after it, unless some state
  looks for both anyway. -/
  apart : Array TokenSet

def Company.of (g : Normal) (o : Overlaps) (states : Array TokenSet) : Company :=
  let count := g.tokens.size
  let together := states.foldl (fun sets s =>
    (s.toList count).foldl (fun sets t => sets.modify t (·.union s)) sets)
    (Array.replicate count TokenSet.empty)
  let range := Array.range count
  { against := range.map fun t => .ofList ((List.range count).filter (o.conflict t))
    apart := range.map fun t => .ofList ((List.range count).filter fun u =>
      !(together.getD t .empty).contains u && (o.reach t u || o.reach u t)) }

/-- Whether states that look for these two sets can share a mode. -/
def Company.allows (c : Company) (count : Nat) (s t : TokenSet) : Bool :=
  let fits (u : Nat) (others : TokenSet) : Bool :=
    !(c.against.getD u .empty).meets others && !(c.apart.getD u .empty).meets others
  ((s.diff t).toList count).all (fits · t) && ((t.diff s).toList count).all (fits · s)

/-- The tokens that the lexer finds for a state: keywords are found as identifiers, and layout tokens
by the layout scanner. -/
def lookedFor (keywords layout : TokenSet) (s : State) : TokenSet :=
  let tokens := s.tokens
  let plain := (tokens.diff keywords).diff layout
  if tokens.meets keywords then plain.insert wordToken else plain

/-- The modes of a list of states, in order, where each state joins the first mode that allows it.
States that nothing leads to are left out. -/
def assignModes (c : Company) (count : Nat) (sets : Array (Option TokenSet)) :
    Array TokenSet × Array Nat :=
  sets.foldl (fun (modes, modeOf) s =>
    match s with
    | none => (modes, modeOf.push 0)
    | some s => match modes.findIdx? (c.allows count · s) with
      | some m => (modes.modify m (·.union s), modeOf.push m)
      | none => (modes.push s, modeOf.push modes.size)) (#[], #[])

/-- The states that can be reached from those in `todo`; the fuel bounds how many are looked at. -/
def reachable (states : Array State) : Nat → List Nat → Array Bool → Array Bool
  | 0, _, seen => seen
  | _ + 1, [], seen => seen
  | fuel + 1, n :: todo, seen =>
    if seen.getD n true then reachable states fuel todo seen
    else
      let s := states.getD n default
      let shifts := s.actions.toList.filterMap target?
      reachable states fuel (shifts ++ (s.gotos.toList.filter (· != 0)) ++ todo) (seen.set! n true)

/-! ## The table of a grammar -/

/-- The text of a fixed token. -/
def textOf : Token → String
  | .fixed text => text
  | _ => ""

/-- **The table of a grammar.** During recovery the text of a format specifier is not looked for: it
would take nearly everything. -/
def of (g : Normal) : Table :=
  let o := Overlaps.of g
  let heldBack := fun t => g.tokens.getD t .endOfText == .pattern .formatText
  let (canonical, reductions) := canonical (Basis.of g) heldBack
  let count := g.tokens.size
  let states := passOver g reductions (mergeStates g o canonical)
  let keywordList := (List.range count).filter (isKeyword g)
  let keywords := TokenSet.ofList keywordList
  let layout := TokenSet.ofList ((List.range count).filter fun t =>
    match g.tokens[t]? with
    | some (.layout _) => true
    | _ => false)
  let company := Company.of g o ((canonical.extract 1 canonical.size).map State.tokens)
  let reached := reachable states (states.size * g.names.size) [errorState, firstState]
    (Array.replicate states.size false)
  let (modes, modeOf) := assignModes company count (states.mapIdx fun n s =>
    if reached.getD n false then some (lookedFor keywords layout s) else none)
  let number := fun k => g.tokens.idxOf k
  let asking := TokenSet.ofList g.layoutValid
  { grammar := g, reductions, states, modeOf
    modes := modes.map fun m => (m.toList count).map fun t => (t, g.tokens.getD t .endOfText)
    wanted := states.map fun s =>
      if s.tokens.meets asking then some (.ofSet number s.tokens) else none
    keywords := keywordList.map fun t => (textOf (g.tokens.getD t .endOfText), t) }

/-! ## Looking up -/

/-- **What a state does on a token.** -/
def actions (t : Table) (state token : Nat) : List Action :=
  match t.states[state]? with
  | some s => s.actions.getD token []
  | none => []

/-- **Where a state goes after a symbol,** or 0 if it cannot have the symbol next. -/
def next (t : Table) (state symbol : Nat) : Nat :=
  match t.grammar.ruleOf? symbol with
  | some r => match t.states[state]? with
    | some s => s.gotos.getD r 0
    | none => 0
  | none => match (t.actions state symbol).getLast? with
    | some (.shift s _) => s
    | some .stay => state
    | _ => 0

/-- The tokens that the lexer looks for in a state. -/
def lookedForIn (t : Table) (state : Nat) : List (Nat × Token) :=
  t.modes.getD (t.modeOf.getD state 0) []

/-- The number of a token. -/
def tokenNumber (t : Table) (k : Token) : Nat := t.grammar.tokens.idxOf k

end Table

end PyBundle.Automaton
