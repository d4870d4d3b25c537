import PyBundle.Grammar.TokenSet
import PyBundle.Lexer.Pattern

/-!
# Tokens that get in each other's way

A lexer that looks for several tokens at once takes the longest match. So it matters which tokens are
looked for together: where `async` is looked for besides `as`, the text `asynchron` is no longer `as`
and a rest. `Overlaps.of` compares every two tokens of a grammar and says of token `a` against
token `b`

* `conflicts`: a text of `b` is also one of `a` and goes to `a`, or `a` goes on after a text of `b`
  with a character that may follow `b`;
* `reaches`: the same, whatever character `a` goes on with.

The comparison runs both patterns side by side through all texts that neither has refused yet.
-/

namespace PyBundle.Lexer

open Grammar (Normal Token TokenSet)

/-- A square table of truth values. -/
structure Overlaps where
  conflicts : Array (Array Bool)
  reaches : Array (Array Bool)
  deriving Inhabited

namespace Overlaps

/-- Whether `a` conflicts with `b`. -/
def conflict (o : Overlaps) (a b : Nat) : Bool := (o.conflicts.getD a #[]).getD b false

/-- Whether `a` reaches over `b`. -/
def reach (o : Overlaps) (a b : Nat) : Bool := (o.reaches.getD a #[]).getD b false

/-- What a comparison of `a` with `b` has found so far. -/
structure Finding where
  /-- Some text matches both. -/
  shared : Bool := false
  /-- `a` goes on after a match of `b`, with a character that may follow `b`. -/
  extended : Bool := false
  /-- `a` goes on after a match of `b`. -/
  continues : Bool := false

/-- The characters that may come next in one of the patterns. -/
def nextChars (hs : List (CharSet × Pattern)) : CharSet := hs.foldl (·.union ·.1) .empty

/-- The patterns that remain after any character of `s`, all of whose characters lie in the same
sets of `hs`. -/
def after (hs : List (CharSet × Pattern)) (s : CharSet) : List Pattern :=
  hs.foldl (fun rest h =>
    if (h.1.inter s).isEmpty || rest.contains h.2 then rest else h.2 :: rest) []

/-- The coarsest division of `s` into parts that no set of the list divides further. -/
def atoms (s : CharSet) (sets : List CharSet) : List CharSet :=
  (sets.foldl (fun parts t => parts.flatMap fun p => [p.inter t, p.diff t]) [s]).filter (!·.isEmpty)

/-- Runs two lists of patterns side by side. `seen` holds the pairs that were looked at, `todo` those
that wait; the fuel bounds their number. -/
def compare (following : CharSet) : Nat → List (List Pattern × List Pattern) →
    List (List Pattern × List Pattern) → Finding → Finding
  | 0, _, _, found => found
  | _ + 1, _, [], found => found
  | fuel + 1, seen, (as, bs) :: todo, found =>
    if seen.contains (as, bs) then compare following fuel seen todo found
    else
      let ha := as.flatMap Pattern.heads
      let hb := bs.flatMap Pattern.heads
      let (na, nb) := (nextChars ha, nextChars hb)
      let beyond := na.diff nb
      let done := bs.any Pattern.nullable
      let found : Finding :=
        { shared := found.shared || done && as.any Pattern.nullable
          extended := found.extended || done && !(beyond.inter following).isEmpty
          continues := found.continues || done && !beyond.isEmpty }
      let next := (atoms (na.inter nb) (ha.map (·.1) ++ hb.map (·.1))).map fun s =>
        (after ha s, after hb s)
      compare following fuel ((as, bs) :: seen) (next ++ todo) found

/-- **The overlaps between the tokens of a grammar.** -/
def of (g : Normal) : Overlaps :=
  let patterns := g.tokens.map Pattern.ofToken?
  let starts := patterns.map fun p => p.elim CharSet.empty fun p => nextChars p.heads
  let follows := g.followSets.map fun s =>
    (s.toList g.tokens.size).foldl (fun cs t => cs.union (starts.getD t .empty)) CharSet.separators
  let finding (a b : Nat) : Finding :=
    match patterns.getD a none, patterns.getD b none with
    | some p, some q =>
      if a == b || ((starts.getD a .empty).inter (starts.getD b .empty)).isEmpty then {}
      else compare (follows.getD b .empty) 4096 [] [([p], [q])] {}
    | _, _ => {}
  let wins (a b : Nat) : Bool :=
    match g.tokens[a]?, g.tokens[b]? with
    | some s, some t => if a ≤ b then winsTie s t else !winsTie t s
    | _, _ => false
  let findings := (Array.range g.tokens.size).map fun a => (Array.range g.tokens.size).map fun b =>
    (finding a b, wins a b)
  { conflicts := findings.map (·.map fun f => f.1.extended || f.1.shared && f.2)
    reaches := findings.map (·.map fun f => f.1.continues || f.1.extended || f.1.shared && f.2) }

end Overlaps

end PyBundle.Lexer
