import PyBundle.Grammar.Production

/-!
# Sets of tokens

A set of tokens of a grammar in normal form is a bit mask over their numbers. `Normal.firstSets` and
`Normal.lastSets` say which tokens the text of a symbol can begin and end with. No production but the
start rule's is empty, so the first symbol of a production decides how it begins.
-/

namespace PyBundle.Grammar

/-- **A set of tokens:** bit `t` of the mask says whether token number `t` belongs to it. -/
structure TokenSet where
  mask : Nat
  deriving BEq, DecidableEq, Hashable, Repr, Inhabited

namespace TokenSet

def empty : TokenSet := ⟨0⟩

def isEmpty (s : TokenSet) : Bool := s.mask == 0

def single (t : Nat) : TokenSet := ⟨1 <<< t⟩

def contains (s : TokenSet) (t : Nat) : Bool := s.mask.testBit t

def union (s t : TokenSet) : TokenSet := ⟨s.mask ||| t.mask⟩

def insert (s : TokenSet) (t : Nat) : TokenSet := s.union (single t)

/-- Whether two sets have a token in common. -/
def meets (s t : TokenSet) : Bool := s.mask &&& t.mask != 0

/-- The tokens of `s` that are not in `t`. -/
def diff (s t : TokenSet) : TokenSet := ⟨s.mask ^^^ (s.mask &&& t.mask)⟩

def ofList (ts : List Nat) : TokenSet := ts.foldl insert empty

/-- The tokens of a set in order, where all of them lie below `bound`. -/
def toList (s : TokenSet) (bound : Nat) : List Nat :=
  (List.range bound).filter s.contains

end TokenSet

namespace Normal

/-- The number of a symbol as a rule, if it is none of the tokens. -/
def ruleOf? (g : Normal) (symbol : Nat) : Option Nat :=
  if symbol < g.tokens.size then none else some (symbol - g.tokens.size)

def isToken (g : Normal) (symbol : Nat) : Bool := symbol < g.tokens.size

/-- One round of a computation of sets by rules: what `pick` takes of each production adds its set to
the rule's. -/
def grow (g : Normal) (pick : List Step → Option Step) (sets : Array TokenSet) : Array TokenSet :=
  (List.range g.productions.size).foldl (fun sets r =>
    (g.productions.getD r []).foldl (fun sets p =>
      match pick p.steps with
      | some s => sets.modify (g.tokens.size + r) (·.union (sets.getD s.symbol .empty))
      | none => sets) sets) sets

/-- Rounds until nothing changes. Each round but the last adds a token to some symbol, and in fact a
round for each symbol is enough, since sets travel along chains of symbols. -/
def saturate (g : Normal) (pick : List Step → Option Step) : Array TokenSet :=
  go g.names.size ((Array.range g.names.size).map fun n =>
    if g.isToken n then TokenSet.single n else .empty)
where
  go : Nat → Array TokenSet → Array TokenSet
    | 0, sets => sets
    | fuel + 1, sets =>
      let next := g.grow pick sets
      if next == sets then sets else go fuel next

/-- **The tokens that each symbol can begin with.** -/
def firstSets (g : Normal) : Array TokenSet := g.saturate List.head?

/-- **The tokens that each symbol can end with.** -/
def lastSets (g : Normal) : Array TokenSet := g.saturate List.getLast?

/-- **The tokens that may follow each token.** Extras may follow any token, and any token may follow
an extra. -/
def followSets (g : Normal) : Array TokenSet :=
  let first := g.firstSets
  let last := g.lastSets
  let count := g.tokens.size
  let extras := TokenSet.ofList g.extras
  let start := (Array.range count).map fun t =>
    if extras.contains t then ⟨1 <<< count - 1⟩ else extras
  let addPair (sets : Array TokenSet) (s t : Step) : Array TokenSet :=
    let follow := first.getD t.symbol .empty
    ((last.getD s.symbol .empty).toList count).foldl (fun sets l => sets.modify l (·.union follow))
      sets
  g.productions.foldl (fun sets ps => ps.foldl (fun sets p =>
    (p.steps.zip p.steps.tail).foldl (fun sets st => addPair sets st.1 st.2) sets) sets) start

end Normal

end PyBundle.Grammar
