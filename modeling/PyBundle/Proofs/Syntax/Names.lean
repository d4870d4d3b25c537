import Mathlib.Data.List.Basic
import PyBundle.Proofs.Syntax.Derivation
import PyBundle.Proofs.Syntax.Spelling

/-!
# The names that are read

The grammar gives a dotted name identifiers with dots between them, and what the parser lets stand before these tokens
is layout, so the node of a dotted name covers the name as it is written (`Gives.spelled`). Each name that is read out of
a tree is the text of such a node (`Tree.exists_node_of_imports`).
-/

namespace PyBundle

/-- **The names of a line:** the one of the module if there is one, and those of the items but the star. -/
def ImportLine.names (l : ImportLine) : List String :=
  [l.moduleName].filter (· != "") ++ l.items.filter (· != "*")

namespace Syntax

open Automaton (Table)
open Grammar (Rule Token python)
open Grammar.Rule
open Lexer (Source)

variable {g : Grammar.Ruleset} {ps : List Piece} {piece : Piece} {name text : String} {rule : Rule}
  {words : List String} {x x' : Text} {t t' : Tree} {ts ts' : List Tree}

/-! ## What a rule gives -/

/-- **A rule that is told by its name:** no other rule and no layout token has it. -/
structure IsRule (g : Grammar.Ruleset) (name : String) (rule : Rule) : Prop where
  mem : (name, rule) ∈ g.rules
  only : (g.rules.filter (·.1 == name)).length = 1
  noLayout : ∀ token ∈ g.layout, token.1 ≠ name

namespace IsRule

variable (isRule : IsRule g name rule)
include isRule

theorem eq {other : Rule} (mem : (name, other) ∈ g.rules) : other = rule := by
  obtain ⟨single, filtered⟩ := List.length_eq_one_iff.mp isRule.only
  have each {r : Rule} (mem : (name, r) ∈ g.rules) : (name, r) = single := by
    have inside : (name, r) ∈ g.rules.filter (·.1 == name) := List.mem_filter.mpr ⟨mem, beq_self_eq_true name⟩
    rw [filtered] at inside
    exact List.mem_singleton.mp inside
  exact (Prod.mk.inj ((each mem).trans (each isRule.mem).symm)).2

/-- A rule with a node of its own gives that node. -/
theorem exists_node (own : g.namesToken (name, rule) = false) (shown : hides g name = false)
    (given : Gives g (.ref name) ps) : ∃ parts, ps = [.node name parts] ∧ Gives g rule parts := by
  cases given with
  | node mem _ _ body =>
    obtain rfl := isRule.eq mem
    exact ⟨_, rfl, body⟩
  | body mem through =>
    obtain rfl := isRule.eq mem
    rcases through with names | hidden
    · exact absurd (own.symm.trans names) Bool.false_ne_true
    · exact absurd (shown.symm.trans hidden) Bool.false_ne_true
  | layout mem => exact absurd rfl (isRule.noLayout _ mem)

/-- A rule that only names a token gives what the token does. -/
theorem of_names (names : g.namesToken (name, rule) = true) (given : Gives g (.ref name) ps) : Gives g rule ps := by
  cases given with
  | node mem own =>
    obtain rfl := isRule.eq mem
    exact absurd (own.symm.trans names) Bool.false_ne_true
  | body mem _ body =>
    obtain rfl := isRule.eq mem
    exact body
  | layout mem => exact absurd rfl (isRule.noLayout _ mem)

end IsRule

/-- What a token that is shown gives is its leaf. -/
theorem Gives.exists_leaf {t : Token} (shows : g.showsToken t = true) (given : Gives g (.token t) ps) :
    ∃ blanks text, ps = [.leaf (g.tokenName t) blanks text] ∧ Spells t text := by
  cases given with
  | token blanks spelled => exact ⟨blanks, _, rfl, spelled⟩
  | hiddenToken hidden => exact absurd (hidden.symm.trans shows) Bool.false_ne_true

theorem Gives.exists_identifier (given : Gives python (ref "identifier") ps) :
    ∃ blanks text, ps = [.leaf "identifier" blanks text] ∧ Text.isIdentifier text = true := by
  have mem : ("identifier", .token (.pattern .identifier)) ∈ python.rules := by
    unfold python
    simp [Grammar.Python.displayRules, Grammar.Python.pat]
  have isRule : IsRule python _ _ := ⟨mem, by decide +kernel, by decide +kernel⟩
  obtain ⟨blanks, text, rfl, spelled⟩ := (isRule.of_names (by decide +kernel) given).exists_leaf (by decide +kernel)
  have form := Lexer.isIdentifier_of_matchToken? spelled
  rw [List.take_length, List.drop_zero, String.ofList_toList] at form
  have named : python.tokenName (.pattern .identifier) = "identifier" := by decide +kernel
  exact ⟨blanks, text, by rw [named], form⟩

/-- A dot is spelled in one way only. -/
theorem Gives.exists_dot (given : Gives python (.token (.fixed ".")) ps) : ∃ blanks, ps = [.leaf "." blanks "."] := by
  obtain ⟨-, shows, named⟩ := words_of_imports "." (by decide)
  obtain ⟨blanks, text, rfl, spelled⟩ := given.exists_leaf shows
  have dot : text = "." := by
    unfold Spells Lexer.matchToken? at spelled
    dsimp only at spelled
    rw [show ".".toList = ['.'] from rfl, Lexer.afterText?, Lexer.afterText?] at spelled
    split at spelled
    · rename_i first
      have here := eq_of_beq (Bool.and_eq_true_iff.mp first).1
      have length := Option.some.inj spelled
      obtain ⟨c, only⟩ := List.length_eq_one_iff.mp length.symm
      have char : (Lexer.Source.ofString text).peek 0 = c := by
        simp [Lexer.Source.peek, Lexer.Source.ofString, only]
      rw [← String.toList_inj, only, ← char, here]
      rfl
    · cases spelled
  exact ⟨blanks, by rw [named, dot]⟩

/-- One or more runs, each with what it gives. -/
theorem Gives.exists_runs {r : Rule} (given : Gives g (.plus r) ps) :
    ∃ runs : List (List Piece), ps = runs.flatten ∧ ∀ run ∈ runs, Gives g r run := by
  generalize whole : Rule.plus r = rule at given
  induction given with
  | @once _ ps body =>
    cases whole
    exact ⟨[ps], by simp, by simpa using body⟩
  | more first _ _ ih =>
    cases whole
    obtain ⟨runs, rfl, each⟩ := ih rfl
    exact ⟨_ :: runs, by simp, List.forall_mem_cons.mpr ⟨first, each⟩⟩
  | _ => cases whole

/-- Any number of runs, each with what it gives. -/
theorem Gives.exists_runs_of_many {r : Rule} (given : Gives g (Rule.many r) ps) :
    ∃ runs : List (List Piece), ps = runs.flatten ∧ ∀ run ∈ runs, Gives g r run := by
  cases given with
  | left first => exact first.exists_runs
  | right second =>
    cases second
    exact ⟨[], rfl, by simp⟩

/-! ## The node of a dotted name -/

namespace Piece

mutual
/-- Whether there is only layout before the tokens of a piece. -/
def IsLaidOut : Piece → Prop
  | leaf _ blanks _ => Gap blanks.toList
  | node _ parts => AreLaidOut parts
/-- Whether there is only layout before the tokens of some pieces. -/
def AreLaidOut : List Piece → Prop
  | [] => True
  | p :: ps => IsLaidOut p ∧ AreLaidOut ps
end

theorem areLaidOut_append {ps qs : List Piece} : AreLaidOut (ps ++ qs) ↔ AreLaidOut ps ∧ AreLaidOut qs := by
  induction ps with
  | nil => simp [AreLaidOut]
  | cons p ps ih => simp [AreLaidOut, ih, and_assoc]

end Piece

/-- An identifier and what follows it in a dotted name are the name as it is written. -/
theorem exists_spelled {runs : List (List Piece)} (identifier : Text.isIdentifier name = true)
    (each : ∀ run ∈ runs, Gives python (.seq "." (ref "identifier")) run) (layout : Piece.AreLaidOut runs.flatten) :
    ∃ words, Spelled words (name.toList ++ Piece.charsOf runs.flatten) := by
  induction runs generalizing name with
  | nil => exact ⟨[name], by simpa [Piece.charsOf] using Spelled.word identifier⟩
  | cons run runs ih =>
    obtain ⟨first, others⟩ := List.forall_mem_cons.mp each
    cases first with
    | seq dot next =>
      obtain ⟨before, rfl⟩ := dot.exists_dot
      obtain ⟨after, word, rfl, isWord⟩ := next.exists_identifier
      obtain ⟨⟨gapBefore, gapAfter, -⟩, rest⟩ := Piece.areLaidOut_append.mp (List.flatten_cons ▸ layout)
      obtain ⟨words, more⟩ := ih isWord others rest
      refine ⟨name :: words, ?_⟩
      have whole := Spelled.dot identifier gapBefore gapAfter more
      simpa [Piece.charsOf] using whole

/-- **The node of a dotted name covers the name as it is written.** -/
theorem Gives.spelled (given : Gives python (ref "dotted_name") [piece]) (layout : piece.IsLaidOut) :
    ∃ words, Spelled words piece.word.toList := by
  have mem : ("dotted_name", ranked 1 (sepBy (ref "identifier") ".")) ∈ python.rules := by
    unfold python
    simp [Grammar.Python.compoundRules]
  have isRule : IsRule python _ _ := ⟨mem, by decide +kernel, by decide +kernel⟩
  obtain ⟨parts, only, body⟩ := isRule.exists_node rfl (by decide +kernel) given
  obtain rfl := List.singleton_inj.mp only
  cases body with
  | level body =>
    cases body with
    | seq first more =>
      obtain ⟨blanks, word, rfl, identifier⟩ := first.exists_identifier
      obtain ⟨runs, rfl, each⟩ := more.exists_runs_of_many
      obtain ⟨words, spelled⟩ := exists_spelled identifier each (Piece.areLaidOut_append.mp layout).2
      refine ⟨words, ?_⟩
      have chars : (Piece.node "dotted_name" ([.leaf "identifier" blanks word] ++ runs.flatten)).word.toList =
          word.toList ++ Piece.charsOf runs.flatten := by
        simp [Piece.word, Piece.lead, Piece.leadOf]
      rwa [chars]

/-! ## The nodes of a tree -/

instance : LawfulBEq Kind where
  eq_of_beq {a b} same := by cases a <;> cases b <;> first | rfl | cases same
  rfl {a} := by cases a <;> rfl

namespace Tree

variable {k : Kind} {n : Tree} {line : ImportLine}

mutual
/-- The nodes of some kind in a tree, itself included. -/
def nodesOf (k : Kind) : Tree → List Tree
  | node l m a b ts => (if l = k then [node l m a b ts] else []) ++ nodesOfAll k ts
/-- The nodes of some kind in several trees. -/
def nodesOfAll (k : Kind) : List Tree → List Tree
  | [] => []
  | t :: ts => nodesOf k t ++ nodesOfAll k ts
end

theorem mem_nodesOfAll : n ∈ nodesOfAll k ts ↔ ∃ t ∈ ts, n ∈ t.nodesOf k := by
  induction ts with
  | nil => simp [nodesOfAll]
  | cons t ts ih => simp [nodesOfAll, ih]

theorem mem_nodesOf_self (isKind : t.kind = k) : t ∈ t.nodesOf k := by
  cases t with
  | node l m a b ts =>
    obtain rfl : l = k := isKind
    simp [nodesOf]

theorem mem_nodesOf_of_child (isChild : t ∈ t'.children) (mem : n ∈ t.nodesOf k) : n ∈ t'.nodesOf k := by
  cases t' with
  | node l m a b ts => exact List.mem_append_right _ (mem_nodesOfAll.mpr ⟨t, isChild, mem⟩)

/-- What is on either side of the keyword of an import are children of its statement. -/
theorem mem_children_of_splitAtImport {side : Tree} (mem : side ∈ t.splitAtImport.1 ∨ side ∈ t.splitAtImport.2) :
    side ∈ t.children := by
  unfold splitAtImport at mem
  rw [List.span_eq_takeWhile_dropWhile] at mem
  rcases mem with before | behind
  · exact (List.takeWhile_prefix _).subset before
  · exact (List.dropWhile_suffix _).subset behind

/-- A child of some kind is a child. -/
theorem mem_nodesOf_of_childrenOf (mem : n ∈ t.childrenOf k) : n ∈ t.nodesOf k := by
  obtain ⟨isChild, isKind⟩ := List.mem_filter.mp mem
  exact mem_nodesOf_of_child isChild (mem_nodesOf_self (eq_of_beq isKind))

/-! ## Names are texts of nodes -/

/-- **The name that an import list mentions is the text of a dotted name.** -/
theorem exists_node_of_name? (named : t.name? x = some name) : ∃ n ∈ t.nodesOf .dottedName, name = n.text x := by
  unfold name? at named
  split at named
  · rename_i isName
    exact ⟨t, mem_nodesOf_self isName, (Option.some.inj named).symm⟩
  · obtain ⟨n, first, rfl⟩ := Option.map_eq_some_iff.mp named
    exact ⟨n, mem_nodesOf_of_childrenOf (List.mem_of_head? first), rfl⟩
  · cases named

theorem exists_node_of_namesIn (mem : name ∈ namesIn x ts) : ∃ n ∈ nodesOfAll .dottedName ts, name = n.text x := by
  obtain ⟨t, isTree, named⟩ := List.mem_filterMap.mp (List.mem_of_mem_filter mem)
  obtain ⟨n, isNode, rfl⟩ := exists_node_of_name? named
  exact ⟨n, mem_nodesOfAll.mpr ⟨t, isTree, isNode⟩, rfl⟩

/-- The items behind the keyword of an import are texts of dotted names. -/
theorem exists_node_of_items (mem : name ∈ namesIn x t.splitAtImport.2) :
    ∃ n ∈ t.nodesOf .dottedName, name = n.text x := by
  obtain ⟨n, isNode, rfl⟩ := exists_node_of_namesIn mem
  obtain ⟨side, isSide, inside⟩ := mem_nodesOfAll.mp isNode
  exact ⟨n, mem_nodesOf_of_child (mem_children_of_splitAtImport (.inr isSide)) inside, rfl⟩

/-- **The module of an import is the text of a dotted name,** if it has a name. -/
theorem exists_node_of_moduleOf? {level : Nat} (found : t.moduleOf? x = some (level, name)) (some : name ≠ "") :
    ∃ n ∈ t.nodesOf .dottedName, name = n.text x := by
  obtain ⟨side, isSide, origin⟩ := List.exists_of_findSome?_eq_some found
  have isChild := mem_children_of_splitAtImport (.inl isSide)
  split at origin
  · have relative : side.relative x = (level, name) := Option.some.inj origin
    have last : ((side.childrenOf .dottedName).getLast?.elim "" (·.text x)) = name := congrArg Prod.snd relative
    cases atEnd : (side.childrenOf .dottedName).getLast? with
    | none =>
      rw [atEnd] at last
      exact absurd last.symm some
    | some n =>
      rw [atEnd] at last
      exact ⟨n, mem_nodesOf_of_child isChild (mem_nodesOf_of_childrenOf (List.mem_of_getLast? atEnd)), last.symm⟩
  · rename_i isName
    exact ⟨side, mem_nodesOf_of_child isChild (mem_nodesOf_self isName),
      (congrArg Prod.snd (Option.some.inj origin)).symm⟩
  · cases origin

theorem exists_node_of_importLines (isLine : line ∈ t.importLines x) (mem : name ∈ line.names) :
    ∃ n ∈ t.nodesOf .dottedName, name = n.text x := by
  obtain ⟨⟨moduleName, c⟩, isPair, made⟩ := List.mem_filterMap.mp isLine
  obtain ⟨_, isChild, pair⟩ := List.mem_filterMap.mp isPair
  obtain ⟨_, named, ⟨⟩⟩ := Option.map_eq_some_iff.mp pair
  obtain rfl : name = moduleName := by
    dsimp only at made
    split at made
    · cases made
    · cases made
      rw [ImportLine.names, List.filter_nil, List.append_nil] at mem
      exact List.mem_singleton.mp (List.mem_of_mem_filter mem)
  obtain ⟨n, isNode, rfl⟩ := exists_node_of_name? named
  exact ⟨n, mem_nodesOf_of_child isChild isNode, rfl⟩

theorem exists_node_of_fromLine? (isLine : t.fromLine? x = some line) (mem : name ∈ line.names) :
    ∃ n ∈ t.nodesOf .dottedName, name = n.text x := by
  obtain ⟨⟨level, moduleName⟩, found, rfl⟩ := Option.map_eq_some_iff.mp isLine
  rcases List.mem_append.mp mem with isModule | isItem
  · obtain ⟨only, some⟩ := List.mem_filter.mp isModule
    obtain rfl := List.mem_singleton.mp only
    exact exists_node_of_moduleOf? found (bne_iff_ne.mp some)
  · obtain ⟨item, noStar⟩ := List.mem_filter.mp isItem
    rcases List.mem_append.mp item with named | star
    · exact exists_node_of_items named
    · split at star
      · obtain rfl := List.mem_singleton.mp star
        exact absurd noStar (by decide)
      · cases star

theorem exists_node_of_futureLine (mem : name ∈ (t.futureLine x).names) :
    name = "__future__" ∨ ∃ n ∈ t.nodesOf .dottedName, name = n.text x := by
  rcases List.mem_append.mp mem with isModule | isItem
  · exact .inl (List.mem_singleton.mp (List.mem_of_mem_filter isModule))
  · exact .inr (exists_node_of_items (List.mem_of_mem_filter isItem))

mutual
/-- **A name that is read is the text of a dotted name,** or the one of the module from the future. -/
theorem exists_node_of_imports : (t : Tree) → line ∈ t.imports x → name ∈ line.names →
    name = "__future__" ∨ ∃ n ∈ t.nodesOf .dottedName, name = n.text x
  | node k m a b ts, isLine, mem => by
    unfold imports at isLine
    split at isLine
    · exact .inr (exists_node_of_importLines isLine mem)
    · exact .inr (exists_node_of_fromLine? (Option.mem_toList.mp isLine) mem)
    · obtain rfl := List.mem_singleton.mp isLine
      exact exists_node_of_futureLine mem
    · rcases exists_node_of_importsOf ts isLine mem with future | ⟨n, isNode, same⟩
      · exact .inl future
      · exact .inr ⟨n, List.mem_append_right _ isNode, same⟩
theorem exists_node_of_importsOf : (ts : List Tree) → line ∈ importsOf x ts → name ∈ line.names →
    name = "__future__" ∨ ∃ n ∈ nodesOfAll .dottedName ts, name = n.text x
  | [], isLine, _ => by cases isLine
  | t :: ts, isLine, mem => by
    rcases List.mem_append.mp isLine with first | later
    · rcases exists_node_of_imports t first mem with future | ⟨n, isNode, same⟩
      · exact .inl future
      · exact .inr ⟨n, List.mem_append_left _ isNode, same⟩
    · rcases exists_node_of_importsOf ts later mem with future | ⟨n, isNode, same⟩
      · exact .inl future
      · exact .inr ⟨n, List.mem_append_right _ isNode, same⟩
end

end Tree

end Syntax

end PyBundle
