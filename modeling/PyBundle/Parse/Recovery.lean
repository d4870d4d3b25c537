import PyBundle.Parse.Reduce

/-!
# Recovery from errors

When no reading can take the next token, the best one recovers. It first makes every node that can be
made, whatever comes next, and adds a token if one missing token is enough (`Stack.enterError`). Then
it is in the error state, where there are two ways to go on (`Stack.recover`): back to a state below
that can take the token, with all branches above it made an error; or over the token, which becomes
skipped text. Both are followed, and the costs decide.
-/

namespace PyBundle.Parse

open Automaton (Action Reduction Table errorState firstState)
open Lexer (Source)

namespace Stack

/-! ## All nodes that can be made -/

/-- The distinct reductions with parts that a state makes on some tokens, and whether it also takes
one of them. -/
def possible (t : Table) (state : Nat) (tokens : List Nat) : List Reduction × Bool :=
  let (rs, takes) := tokens.foldl (fun acc token =>
    (t.actions state token).foldl (fun (rs, takes) a =>
      match a with
      | .shift _ rerun => (rs, takes || !rerun)
      | .recover => (rs, true)
      | .reduce n =>
        let r := t.reductions.getD n default
        let known := rs.any fun (q : Reduction) => q.symbol == r.symbol && q.count == r.count
        (if 0 < r.count && !known then r :: rs else rs, takes)
      | _ => (rs, takes)) acc) ([], false)
  (rs.reverse, takes)

/-- **Makes all nodes that some tokens allow,** on the reading `start` and on all readings that come of
it, which are those from `first` on. If `single` holds, readings that cannot take a token in the end
are dropped. The answer says whether one can. The fuel bounds the rounds. -/
def reduceAll (t : Table) (s : Source) (tokens : List Nat) (single : Bool) (first start : Nat) :
    Nat → Nat → Nat → Bool → Stack → Stack × Bool
  | 0, _, _, takes, k => (k, takes)
  | fuel + 1, round, v, takes, k =>
    let again := reduceAll t s tokens single first start fuel (round + 1)
    let count := k.heads.size
    if count ≤ v then (k, takes)
    else
      match (List.range (v - first)).findSome? fun j => merge? t s k (first + j) v with
      | some k => again v takes k
      | none =>
        let (rs, canTake) := possible t (k.state v) tokens
        let (k, made?) := rs.foldl (fun (k, _) r => reduce t s k v r) (k, none)
        let next := if v == start then count else v + 1
        if canTake then again next true k
        else match made? with
          | some w =>
            if round < maxHeads then again v takes (k.replace w v)
            else again next takes (if single then k.remove v else k)
          | none => again next takes (if single then k.remove v else k)

/-- A bound for the rounds of `reduceAll`: far above what the limit on readings allows. -/
def reduceRounds : Nat := 10000

/-! ## Entering the error state -/

/-- All tokens but the end of the text. -/
def anyToken (t : Table) : List Nat := (List.range t.grammar.tokens.size).drop 1

/-- Whether a state makes a node on a token. -/
def makesNode (t : Table) (state token : Nat) : Bool :=
  match t.actions state token with
  | .reduce _ :: _ => true
  | _ => false

/-- **Adds a missing token to a reading,** if after it the lookahead can be taken: the first token that
will do. The new reading comes behind all others. The end of the text can be taken after anything. -/
def addMissing (t : Table) (s : Source) (lookahead : Nat) (position : Nat) (k : Stack) (v : Nat) :
    List Nat → Stack × Bool
  | [] => (k, false)
  | token :: rest =>
    let state := k.state v
    let next := t.next state token
    if next == 0 || next == state || !makesNode t next lookahead then
      addMissing t s lookahead position k v rest
    else
      let w := k.heads.size
      let k := (k.copyHead v).push t w (some (.absent token position)) next
      let tokens := if lookahead == 0 then anyToken t else [lookahead]
      let (k, takes) := reduceAll t s tokens (lookahead != 0) (w + 1) w reduceRounds 0 w false k
      if takes then (k, true) else addMissing t s lookahead position k v rest

/-- The states below a reading with their depths, as far as recovery looks. -/
def summarize (k : Stack) (v : Nat) : Stack :=
  let maxDepth := 16
  let rec go : Nat → List Path → Array Below → Array Below
    | 0, _, found => found
    | _ + 1, [], found => found
    | fuel + 1, ps, found =>
      let found := ps.foldl (fun (found : Array Below) p =>
        let state := (k.entry p.entry).state
        let known := found.any fun b => b.depth == p.depth && b.state == state
        if maxDepth < p.depth || known then found
        else found.push ⟨(k.entry p.entry).position, p.depth, state⟩) found
      go fuel (k.stepPaths (fun p => ⟨false, p.depth ≤ maxDepth⟩) ps).2 found
  let found := go (k.entries.size + 1) [⟨(k.head v).entry, [], 0⟩] #[]
  k.modifyHead v ({ · with summary := some found })

/-- Puts the mark of an error on the readings `v`, `first`, … up to `last`, where a token is added to
the first one that allows it. -/
def markAll (t : Table) (s : Source) (lookahead : Branch) (position v first last : Nat) :
    Nat → Nat → Bool → Stack → Stack
  | 0, _, _, k => k
  | fuel + 1, w, added, k =>
    if last ≤ w then k
    else
      let (k, added) := match lookahead.symbol, added with
        | .of token, false =>
          addMissing t s token position k w (anyToken t)
        | _, _ => (k, added)
      let k := k.push t w none errorState
      markAll t s lookahead position v first last fuel (if w == v then first else w + 1) added k

/-! ## Going back to a state -/

/-- Takes the error off the top of a reading, if it stands there. -/
def popError? (k : Stack) (v : Nat) : Option (Stack × Branch) :=
  let isFault := fun (l : Link) => l.branch.any (·.symbol.isError)
  if (k.top v).links.any isFault then
    let taken (p : Path) : Bool := match p.branches with
      | b :: _ => b.symbol.isError
      | [] => false
    let (k', groups) := k.popPaths v fun p =>
      ⟨taken p, p.branches.isEmpty⟩
    match groups with
    | (w, (b :: _) :: _) :: _ =>
      -- only the first such path counts
      let k' := { k' with heads := k'.heads.extract 0 (w + 1) }
      some (k'.replace w v, b)
    | _ => none
  else none

/-- **Goes back to a state at a depth.** What stands above it becomes an error, which may stand
anywhere. -/
def recoverTo (t : Table) (s : Source) (k : Stack) (v depth goal : Nat) : Stack × Bool :=
  let (k, groups) := k.pop v depth
  groups.foldl (fun (k, done) (w, ways) =>
    if k.state w != goal then (k.halt w, done)
    else
      let branches := ways.headD []
      let (k, branches) := match k.popError? w with
        | some (k, b) => (k, b.parts ++ branches)
        | none => (k, branches)
      let (parts, extras) := Branch.splitExtras branches
      let k := if parts.isEmpty then k
        else k.push t w (some ((Branch.node t s .error [] parts (k.position w)).relabel
          ({ · with extra := true }))) goal
      (extras.foldl (fun k b => k.push t w (some b) goal) k, true)) (k, false)

/-- The first state below a reading that can take a token, if going back to it is worth its cost. -/
def goBack (t : Table) (s : Source) (k : Stack) (v : Nat) (token : Nat) : Stack × Bool :=
  let position := k.position v
  let progress := k.sizeSinceError v
  let cost := k.cost v
  let readings := (List.range k.heads.size).map fun w => (k.state w, k.position w)
  let rec go : List Below → Stack × Bool
    | [] => (k, false)
    | b :: rest =>
      if b.state == errorState || b.position == position
          || readings.contains (b.state, position) then go rest
      else
        let newCost := cost + b.depth * Branch.skippedNodeCost
          + Branch.textCost s b.position position
        if k.betterExists v newCost then (k, false)
        else if (t.actions b.state token).isEmpty then go rest
        else
          let depth := if 0 < progress then b.depth + 1 else b.depth
          match recoverTo t s k v depth b.state with
          | (k, true) => (k, true)
          | (_, false) => go rest
  go ((k.head v).summary.elim [] (·.toList))

/-! ## Complete trees -/

/-- The tree of a path from the bottom of the stack: the last branch that is no extra is the root, and
the branches around it become its parts. -/
def rootOf? (t : Table) (s : Source) (branches : List Branch) : Option Branch :=
  let (front, extras) := Branch.splitExtras branches
  front.getLast?.map fun root =>
    Branch.node t s root.symbol root.label.shown (front.dropLast ++ root.parts ++ extras) 0

/-- **A reading is complete** with the end of the text. -/
def accept (t : Table) (s : Source) (k : Stack) (v : Nat) (lookahead : Branch) : Stack :=
  let k := k.push t v (some lookahead) firstState
  let bottom := fun (p : Path) => (k.entry p.entry).links.isEmpty
  let (k, groups) := k.popPaths v fun p => ⟨bottom p, true⟩
  let k := groups.foldl (fun k g => g.2.foldl (fun (k : Stack) branches =>
    match rootOf? t s branches with
    | none => k
    | some root =>
      let better := k.finished.elim true (·.prefersSecond root)
      { k with finished := if better then some root else k.finished,
               accepted := k.accepted + 1 }) k) k
  let k := match groups with
    | (w, _) :: _ => k.remove w
    | [] => k
  k.halt v

/-! ## Both ways -/

/-- Drops the readings from `first` on that are not active. -/
def dropHalted (k : Stack) (first : Nat) : Stack :=
  { k with heads := (k.heads.toList.zipIdx.filter fun (h, i) =>
      i < first || match h.status with | .active => true | _ => false).map (·.1) |>.toArray }

/-- Puts skipped text on a reading in the error state, together with what was skipped before. -/
def skip (t : Table) (s : Source) (k : Stack) (v : Nat) (lookahead : Branch) : Stack :=
  let anywhere : Bool := match lookahead.symbol with
    | .of token => (t.actions firstState token).getLast? == some .stay
    | _ => false
  let lookahead := if anywhere then lookahead.relabel ({ · with extra := true }) else lookahead
  let skipped := Branch.node t s .skipped [] [lookahead] lookahead.label.start
  let (k, skipped) :=
    if 0 < k.sizeSinceError v then
      match k.pop v 1 with
      | (k', (w, ways) :: _) =>
        let k' := { k' with heads := k'.heads.extract 0 (w + 1) }
        (k'.replace w v, Branch.node t s .skipped [] (ways.headD [] ++ [skipped]) skipped.label.start)
      | (k', []) => (k', skipped)
    else (k, skipped)
  let k := k.push t v (some skipped) errorState
  match lookahead.label.layout with
  | some st => k.modifyHead v ({ · with layout := some st })
  | none => k

/-- **Goes on after an error:** back to a state that can take the token, and over the token. -/
def recover (t : Table) (s : Source) (k : Stack) (v : Nat) (lookahead : Branch) : Stack :=
  let first := k.heads.size
  let cost := k.cost v
  let k := k.clampSize v
  let (k, wentBack) := match lookahead.symbol with
    | .of token => goBack t s k v token
    | _ => (k, false)
  let k := k.dropHalted first
  if lookahead.symbol == .of 0 then
    let position := k.position v
    let k := k.push t v (some (Branch.node t s .error [] [] position)) firstState
    accept t s k v lookahead
  else if wentBack && (maxHeads < k.heads.size || lookahead.label.layoutMoved) then k.halt v
  else
    let l := lookahead.label
    if k.betterExists v (cost + Branch.skippedNodeCost + Branch.textCost s l.padding l.stop) then
      k.halt v
    else skip t s k v lookahead

/-- **A reading enters the error state.** All readings that its last branches allow go
with it, and it goes on from there with the token that did not fit. -/
def enterError (t : Table) (s : Source) (k : Stack) (v : Nat) (lookahead : Branch) : Stack :=
  let first := k.heads.size
  let (k, _) := reduceAll t s (anyToken t) false first v reduceRounds 0 v false k
  let last := k.heads.size
  let k := markAll t s lookahead (k.position v) v first last (last + 1) v false k
  let k := (List.range (last - first)).foldl (fun k _ => (merge? t s k v first).getD k) k
  recover t s (k.summarize v) v lookahead

end Stack

end PyBundle.Parse
