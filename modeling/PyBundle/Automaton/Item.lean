import Std.Data.HashMap
import PyBundle.Grammar.TokenSet

/-!
# Items

An item is a production with a mark in it: what stands before the mark has been read, what stands
behind it is still expected. Two items count as one if they expect the same and if what they have
read will be treated in the same way, so an item forgets which symbols it has read. It remembers how
many there were, the decorations of the last one, and under which names the nodes are shown.

The items that a state of the automaton holds besides those it was made for come from the rules
whose text may begin at the mark. They are worked out once for each rule (`expansions`), with the tokens
that may follow them: some that follow in every context, and, where an expansion ends with its
production, those that may follow the item it comes from.
-/

namespace PyBundle.Automaton

open Grammar (Assoc Normal Production Step TokenSet)

/-- **A production with a mark.** -/
structure Item where
  /-- How many symbols have been read. -/
  read : Nat
  /-- The rule, counted from the first one; the start item has none. -/
  rule : Option Nat
  /-- The weight of the production while parsing. -/
  weight : Int
  /-- The precedence of the last symbol that was read. -/
  precedence : Option Int
  /-- The associativity of the last symbol that was read. -/
  assoc : Option Assoc
  /-- The names under which the nodes that were read are shown. -/
  shown : List (Option String)
  /-- What is still expected. -/
  expected : List Step
  deriving BEq, Hashable, Repr, Inhabited

namespace Item

/-- The item of a production of which nothing has been read. -/
def start (rule : Nat) (p : Production) : Item :=
  ⟨0, some rule, p.weight, none, none, [], p.steps⟩

/-- The item after its next symbol. -/
def advance (i : Item) : Item :=
  match i.expected with
  | [] => i
  | s :: rest => { i with read := i.read + 1, precedence := s.precedence, assoc := s.assoc,
                          shown := i.shown ++ [s.shown], expected := rest }

/-- The symbol behind the mark. -/
def next? (i : Item) : Option Nat := i.expected.head?.map (·.symbol)

/-- The precedence as a number, which is zero if none was given. -/
def level (i : Item) : Int := i.precedence.getD 0

end Item

/-- **Items by number,** which makes them cheap to compare. Numbers are given in order of
appearance. -/
structure Items where
  all : Array Item := #[]
  numbers : Std.HashMap Item Nat := {}

namespace Items

/-- The number of an item, a new one if it has none yet. -/
def number (items : Items) (i : Item) : Items × Nat :=
  match items.numbers[i]? with
  | some n => (items, n)
  | none => (⟨items.all.push i, items.numbers.insert i items.all.size⟩, items.all.size)

def get (items : Items) (n : Nat) : Item := items.all.getD n default

end Items

/-! ## Closing -/

/-- **An item that stands besides another one:** its number, the tokens that may follow it in any
case, and whether those that follow the rule's own item may follow it too. -/
structure Expansion where
  item : Nat
  following : TokenSet
  inherits : Bool
  deriving BEq, Repr, Inhabited

/-- The rules that a rule's text can begin with, the rule itself included, each with what may follow
it. `todo` holds the pairs still to be worked in; the fuel bounds how often one can be. -/
def reach (g : Normal) (first : Array TokenSet) : Nat → List (Nat × TokenSet × Bool) →
    Std.HashMap Nat (TokenSet × Bool) → Std.HashMap Nat (TokenSet × Bool)
  | 0, _, known => known
  | _ + 1, [], known => known
  | fuel + 1, (r, following, inherits) :: todo, known =>
    let old := known.getD r (.empty, false)
    let new := (old.1.union following, old.2 || inherits)
    if known.contains r && new == old then reach g first fuel todo known
    else
      let more := (g.productions.getD r []).filterMap fun p =>
        match p.steps with
        | s :: rest => (g.ruleOf? s.symbol).map fun r' =>
          match rest with
          | t :: _ => (r', first.getD t.symbol .empty, false)
          | [] => (r', new)
        | [] => none
      reach g first fuel (more ++ todo) (known.insert r new)

/-- **The expansions of every rule,** and the items they consist of. -/
def expansions (g : Normal) (first : Array TokenSet) (items : Items) :
    Items × Array (List Expansion) :=
  (List.range g.productions.size).foldl (fun (items, out) r =>
    let known := reach g first (g.names.size * g.names.size) [(r, .empty, true)] {}
    let (items, es) := (List.range g.productions.size).foldl (fun (items, es) q =>
      match known[q]? with
      | none => (items, es)
      | some (following, inherits) =>
        (g.productions.getD q []).foldl (fun (items, es) p =>
          let (items, n) := items.number (.start q p)
          (items, ⟨n, following, inherits⟩ :: es)) (items, es)) (items, [])
    (items, out.push es.reverse)) (items, #[])

end PyBundle.Automaton
