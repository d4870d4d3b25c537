import PyBundle.Grammar.Rule

/-!
# Productions

A grammar's rules are brought into a normal form before an automaton is built from them
(`Ruleset.normalize`): tokens and rules are numbered, a repetition becomes a rule of its own that
joins two runs of it, a choice becomes several productions, and a rule that is to be inlined is
replaced by its productions.

Tokens come first in the numbering: the end of the text, the identifier, the other tokens in the
order in which the rules mention them, the layout tokens. Rules follow in their own order, and the
rules made for repetitions come last. A rule that is one token used nowhere else is no rule any more:
it gives the token its name.
-/

namespace PyBundle.Grammar

/-- **One symbol of a production,** with what the decorations around it say. -/
structure Step where
  symbol : Nat
  precedence : Option Int
  assoc : Option Assoc
  /-- The name under which the symbol's node is shown, if not its own. -/
  shown : Option String
  deriving BEq, Hashable, Repr, Inhabited

/-- **A production:** the symbols of one reading of a rule, and its weight while parsing. -/
structure Production where
  weight : Int
  steps : List Step
  deriving BEq, Hashable, Repr, Inhabited

/-- **A grammar in normal form.** Symbols below `tokens.size` are tokens, the others rules. -/
structure Normal where
  /-- The tokens by number. -/
  tokens : Array Token
  /-- The names of all symbols by number. -/
  names : Array String
  /-- Whether a symbol's node appears in the tree. -/
  visible : Array Bool
  /-- Whether a symbol is a rule made for a repetition. -/
  auxiliary : Array Bool
  /-- The productions of each rule, counted from the first rule. -/
  productions : Array (List Production)
  /-- The numbers of the tokens that may stand anywhere. -/
  extras : List Nat
  /-- The numbers of the tokens that the layout scanner finds or asks about. -/
  layoutValid : List Nat
  /-- The rules that only gather others. -/
  gathered : List Nat
  deriving Inhabited

namespace Rule

/-- The tokens of a rule, in order of mention. -/
def tokens : Rule → List Token
  | .token t => [t]
  | .seq a b => a.tokens ++ b.tokens
  | .alt a b => a.tokens ++ b.tokens
  | .plus r => r.tokens
  | .level _ _ r => r.tokens
  | .weigh _ r => r.tokens
  | .shown _ r => r.tokens
  | .blank => []
  | .ref _ => []

/-! ## Repetitions -/

/-- The rules made for repetitions so far, with the body that each one repeats. -/
structure Repeats where
  made : Array (Rule × String) := #[]

/-- **A repetition becomes a rule that is its body or two runs of itself.** Two repetitions of one
body share the rule. -/
def expand (owner : String) : Rule → StateM Repeats Rule
  | .seq a b => return .seq (← a.expand owner) (← b.expand owner)
  | .alt a b => return .alt (← a.expand owner) (← b.expand owner)
  | .level p a r => return .level p a (← r.expand owner)
  | .weigh w r => return .weigh w (← r.expand owner)
  | .shown n r => return .shown n (← r.expand owner)
  | .plus r => do
    let body ← r.expand owner
    let known := (← get).made
    match known.find? (·.1 == body) with
    | some (_, name) => return .ref name
    | none =>
      let name := s!"_{owner}_run{known.size}"
      set ({ made := known.push (body, name) } : Repeats)
      return .ref name
  | r => return r

/-- The rule for a repetition of `body` that is called `name`. -/
def run (name : String) (body : Rule) : Rule := .alt (.seq (.ref name) (.ref name)) body

/-! ## Choices -/

/-- Of two weights the one of larger size, the first one on a tie. -/
def heavier (a b : Int) : Int := if a.natAbs < b.natAbs then b else a

/-- The last step with its decorations replaced. -/
def relast (f : Step → Step) : List Step → List Step
  | [] => []
  | [s] => [f s]
  | s :: t :: rest => s :: relast f (t :: rest)

/-- **The readings of a rule.** `atEnd` says that nothing follows in the production: a precedence
reaches the last symbol of its rule only there, since it is meant for what comes after that
symbol. -/
def readings (number : Token ⊕ String → Nat) (precedence : Option Int) (assoc : Option Assoc)
    (name : Option String) (atEnd : Bool) : Rule → List Production
  | .blank => [⟨0, []⟩]
  | .token t => [⟨0, [⟨number (.inl t), precedence, assoc, name⟩]⟩]
  | .ref r => [⟨0, [⟨number (.inr r), precedence, assoc, name⟩]⟩]
  | .seq a b =>
    let second := b.readings number precedence assoc name atEnd
    (a.readings number precedence assoc name false).flatMap fun p =>
      second.map fun q => ⟨heavier p.weight q.weight, p.steps ++ q.steps⟩
  | .alt a b => a.readings number precedence assoc name atEnd
      ++ b.readings number precedence assoc name atEnd
  | .plus r => r.readings number precedence assoc name atEnd
  | .level p a r =>
    (r.readings number (some p) (a.or assoc) name atEnd).map fun q =>
      if atEnd then q
      else ⟨q.weight, relast (fun s =>
        { s with precedence, assoc := if a.isSome then assoc else s.assoc }) q.steps⟩
  | .weigh w r => (r.readings number precedence assoc name atEnd).map fun q =>
      ⟨heavier w q.weight, q.steps⟩
  | .shown n r => r.readings number precedence assoc (some n) atEnd

end Rule

/-! ## Inlining -/

namespace Production

/-- The steps of `p` in the place of step `s`, which hands on its decorations. -/
def inPlaceOf (s : Step) (p : Production) : List Step :=
  let named := p.steps.map fun t => { t with shown := s.shown.or t.shown }
  Rule.relast (fun t => { t with precedence := t.precedence.or s.precedence, assoc := t.assoc.or s.assoc })
    named

/-- **Every symbol with a body in `body?` is replaced by its productions.** The fuel bounds how deep
one such body may stand inside another. -/
def inline (body? : Nat → Option (List Production)) : Nat → List Step → List Production
  | 0, steps => [⟨0, steps⟩]
  | fuel + 1, steps => go fuel steps
where
  go (fuel : Nat) : List Step → List Production
    | [] => [⟨0, []⟩]
    | s :: rest =>
      let tails := go fuel rest
      match body? s.symbol with
      | none => tails.map fun q => ⟨q.weight, s :: q.steps⟩
      | some bodies =>
        (bodies.flatMap fun p => (inline body? fuel (p.inPlaceOf s)).map fun q =>
            ({ q with weight := Rule.heavier p.weight q.weight } : Production)).flatMap fun p =>
          tails.map fun q => ⟨Rule.heavier p.weight q.weight, p.steps ++ q.steps⟩

end Production

/-- The elements of a list, each at its first place. -/
def firsts [BEq α] (xs : List α) : List α :=
  (xs.foldl (fun seen x => if seen.contains x then seen else x :: seen) []).reverse

/-- Whether a rule's name marks its node as hidden. -/
def isHiddenName (name : String) : Bool := name.startsWith "_"

namespace Ruleset

/-- The name of a token of the rules: that of the rule whose body it is, if it is used nowhere
else. -/
def ownName? (g : Ruleset) (t : Token) : Option String :=
  if (g.rules.flatMap (·.2.tokens)).count t == 1 then (g.rules.find? (·.2 == .token t)).map (·.1)
  else none

/-- Whether a rule only names a token. -/
def namesToken (g : Ruleset) : String × Rule → Bool
  | (name, .token t) => g.ownName? t == some name
  | _ => false

/-- The tokens by number. -/
def tokenOrder (g : Ruleset) : List Token :=
  let word := Token.pattern .identifier
  (.endOfText :: word :: (firsts (g.rules.flatMap (·.2.tokens))).filter (· != word))
    ++ g.layout.map fun l => Token.layout l.2

/-- The name of a token. -/
def tokenName (g : Ruleset) : Token → String
  | .endOfText => "_end"
  | .fixed text => (g.ownName? (.fixed text)).getD text
  | .pattern c => (g.ownName? (.pattern c)).getD "_pattern"
  | .layout l => ((g.layout.find? (·.2 == l)).map (·.1)).getD "_layout"

/-- Whether a token's node appears in the tree: every fixed text does, others unless their name is
hidden. -/
def showsToken (g : Ruleset) (t : Token) : Bool :=
  match t with
  | .fixed text => (g.ownName? (.fixed text)).all (!isHiddenName ·)
  | t => !isHiddenName (g.tokenName t)

/-- The rules that are left once tokens are named and repetitions expanded, and how many of them,
at the end, were made for repetitions. -/
def expanded (g : Ruleset) : List (String × Rule) × Nat :=
  let expandAll : StateM Rule.Repeats (List (String × Rule)) :=
    (g.rules.filter (!g.namesToken ·)).mapM fun rule => do
      return (rule.1, ← Rule.expand rule.1 rule.2)
  let (bodies, repeats) := expandAll.run {}
  (bodies ++ repeats.made.toList.map fun (body, name) => (name, Rule.run name body),
    repeats.made.size)

/-- **The normal form of a grammar.** -/
def normalize (g : Ruleset) : Normal :=
  let tokens := g.tokenOrder
  let tokenNames := tokens.map g.tokenName
  let (rules, runs) := g.expanded
  let ruleNames := rules.map (·.1)
  let number : Token ⊕ String → Nat
    | .inl t => tokens.idxOf t
    | .inr name => match ruleNames.findIdx? (· == name) with
      | some i => tokens.length + i
      | none => tokenNames.idxOf name
  let readings := rules.map fun rule => firsts (rule.2.readings number none none none true)
  let inlined := g.inlined.map (number <| .inr ·)
  let body? := fun n => if inlined.contains n then readings[n - tokens.length]? else none
  let size := tokens.length + rules.length
  let productions := readings.map fun ps => firsts <| ps.flatMap fun p =>
    (Production.inline body? size p.steps).map fun q =>
      ({ q with weight := Rule.heavier p.weight q.weight } : Production)
  -- a hidden rule that is renamed wherever it is used is shown under that name
  let uses := readings.flatMap fun ps => ps.flatMap (·.steps)
  let alwaysRenamed := fun n => uses.any (·.symbol == n) && !inlined.contains n
    && uses.all fun s => s.symbol != n || s.shown.isSome
  let showsRule := fun i name => alwaysRenamed (tokens.length + i)
    || !(isHiddenName name || g.gathered.contains name)
  { tokens := tokens.toArray
    names := (tokenNames ++ ruleNames).toArray
    visible := (tokens.map g.showsToken ++ ruleNames.mapIdx showsRule).toArray
    auxiliary := (List.replicate (size - runs) false ++ List.replicate runs true).toArray
    productions := productions.toArray
    extras := g.extras.map (number <| .inl ·)
    layoutValid := (g.layout.map fun l => number (.inl (.layout l.2)))
      ++ g.landmarks.map (number <| .inl ·)
    gathered := g.gathered.map (number <| .inr ·) }

end Ruleset

end PyBundle.Grammar
