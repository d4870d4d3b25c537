import Mathlib.Data.List.TakeDrop
import PyBundle.Proofs.Lexer.Source
import PyBundle.Syntax.Python

/-!
# Trees over a text

A piece is a node of the grammar with its text spelled out: every token brings the blanks before it. Its characters
are then those of its tokens in order, and the syntax tree over them is told by the position where they start
(`Piece.tree`). What is read out of that tree is what the piece has: the text of a node is the word of its piece
(`text_tree`), names come out of the parts (`name?_tree`, `map_text_childrenOf`), and import lists too
(`importLines_tree`, `namesIn_treesOf`).
-/

namespace PyBundle.Syntax

open Lexer (Source StandsAt)
open Parse (kindOfName)

/-- **A node with its text:** a token under its name in the grammar, with the blanks before it, or a rule's node over
its parts. -/
inductive Piece where
  | leaf (name blanks text : String)
  | node (name : String) (parts : List Piece)
  deriving Repr, Inhabited

namespace Piece

variable {text : String} {line n : Nat} {p q : Piece} {ps qs : List Piece} {k : Kind}

def name : Piece → String
  | leaf name _ _ => name
  | node name _ => name

def parts : Piece → List Piece
  | leaf _ _ _ => []
  | node _ parts => parts

def kind (p : Piece) : Kind := kindOfName p.name

mutual
/-- The characters of a piece, with the blanks before it. -/
def chars : Piece → List Char
  | leaf _ blanks text => blanks.toList ++ text.toList
  | node _ parts => charsOf parts
/-- The characters of pieces in a row. -/
def charsOf : List Piece → List Char
  | [] => []
  | p :: ps => chars p ++ charsOf ps
end

mutual
/-- The number of blanks before a piece. -/
def lead : Piece → Nat
  | leaf _ blanks _ => blanks.toList.length
  | node _ parts => leadOf parts
/-- The number of blanks before the first of some pieces. -/
def leadOf : List Piece → Nat
  | [] => 0
  | p :: _ => lead p
end

/-- **The text of a piece,** without the blanks before it. -/
def word (p : Piece) : String := String.ofList (p.chars.drop p.lead)

mutual
/-- **The syntax tree over a piece** whose characters start at position `n`. A node starts behind the blanks before its
first token and stops with its last one. -/
def tree (n : Nat) : Piece → Tree
  | leaf name blanks text =>
    .node (kindOfName name) false (n + blanks.toList.length) (n + (blanks.toList ++ text.toList).length) []
  | node name parts =>
    .node (kindOfName name) false (n + leadOf parts) (n + (charsOf parts).length) (treesOf n parts)
/-- The syntax trees over pieces in a row. -/
def treesOf (n : Nat) : List Piece → List Tree
  | [] => []
  | p :: ps => tree n p :: treesOf (n + (chars p).length) ps
end

/-! ## Characters and positions -/

@[simp] theorem chars_leaf (name blanks text : String) : (leaf name blanks text).chars = blanks.toList ++ text.toList :=
  rfl

@[simp] theorem chars_node (name : String) (ps : List Piece) : (node name ps).chars = charsOf ps := rfl

@[simp] theorem charsOf_eq (ps : List Piece) : charsOf ps = ps.flatMap chars := by
  induction ps with
  | nil => rfl
  | cons p ps ih => rw [charsOf, ih, List.flatMap_cons]

mutual
theorem lead_le : (p : Piece) → p.lead ≤ p.chars.length
  | leaf _ blanks text => by simp [lead]
  | node _ parts => leadOf_le parts
theorem leadOf_le : (ps : List Piece) → leadOf ps ≤ (charsOf ps).length
  | [] => Nat.le_refl _
  | p :: ps => Nat.le_trans (lead_le p) (by simp [charsOf])
end

@[simp] theorem kind_tree (n : Nat) (p : Piece) : (p.tree n).kind = p.kind := by cases p <;> rfl

theorem start_tree (n : Nat) (p : Piece) : (p.tree n).start = n + p.lead := by cases p <;> rfl

theorem stop_tree (n : Nat) (p : Piece) : (p.tree n).stop = n + p.chars.length := by cases p <;> rfl

theorem children_tree (n : Nat) (p : Piece) : (p.tree n).children = treesOf n p.parts := by cases p <;> rfl

theorem treesOf_append (n : Nat) (ps qs : List Piece) :
    treesOf n (ps ++ qs) = treesOf n ps ++ treesOf (n + (charsOf ps).length) qs := by
  induction ps generalizing n with
  | nil => rfl
  | cons p ps ih =>
    rw [List.cons_append, treesOf, treesOf, charsOf, ih, List.length_append, Nat.add_assoc, List.cons_append]

/-! ## Reading a tree -/

/-- **What is read of trees in a row is what the pieces have,** if that is so of each. -/
theorem filterMap_treesOf {α : Type} {f : Tree → Option α} {g : Piece → Option α}
    (stands : StandsAt text line n (charsOf ps))
    (same : ∀ p ∈ ps, ∀ m, StandsAt text line m p.chars → f (p.tree m) = g p) :
    (treesOf n ps).filterMap f = ps.filterMap g := by
  induction ps generalizing n with
  | nil => rfl
  | cons p ps ih =>
    obtain ⟨sameFirst, sameRest⟩ := List.forall_mem_cons.mp same
    have first : f (p.tree n) = g p := sameFirst n stands.left
    rw [treesOf, List.filterMap_cons, List.filterMap_cons, first, ih stands.right sameRest]

theorem map_kind_treesOf (n : Nat) (ps : List Piece) : (treesOf n ps).map Tree.kind = ps.map kind := by
  induction ps generalizing n with
  | nil => rfl
  | cons p ps ih => rw [treesOf, List.map_cons, List.map_cons, kind_tree, ih]

/-- **The text of a node is the word of its piece.** -/
theorem text_tree (stands : StandsAt text line n p.chars) : (p.tree n).text (textOf (.ofString text)) = p.word := by
  rw [Tree.text, start_tree, stop_tree]
  exact stands.slice p.lead

/-- A node starts on the line of its piece. -/
theorem line_tree (stands : StandsAt text line n p.chars) : (Source.ofString text).line (p.tree n).start = line := by
  rw [start_tree]
  exact stands.line_eq p.lead_le

/-- The words of the parts of some kind. -/
def words (k : Kind) (p : Piece) : List String := (p.parts.filter (·.kind == k)).map word

theorem map_text_childrenOf (stands : StandsAt text line n p.chars) (k : Kind) :
    ((p.tree n).childrenOf k).map (·.text (textOf (.ofString text))) = p.words k := by
  cases p with
  | leaf => rfl
  | node name parts =>
    unfold Tree.childrenOf words
    rw [← List.filterMap_eq_map, ← List.filterMap_eq_map, List.filterMap_filter, List.filterMap_filter]
    refine filterMap_treesOf stands fun q _ m here => ?_
    rw [kind_tree, Function.comp_apply, text_tree here, Function.comp_apply]

/-- **The name that a piece mentions in an import list:** a dotted name itself, and of an alias the original. -/
def name? (p : Piece) : Option String :=
  match p.kind with
  | .dottedName => some p.word
  | .aliasedName => (p.words .dottedName).head?
  | _ => none

theorem name?_tree (stands : StandsAt text line n p.chars) : (p.tree n).name? (textOf (.ofString text)) = p.name? := by
  have original : ((p.tree n).childrenOf .dottedName).head?.map (·.text (textOf (.ofString text))) =
      (p.words .dottedName).head? := by
    rw [← List.head?_map, map_text_childrenOf stands]
  unfold Tree.name? name?
  cases kind : p.kind <;> simp only [kind_tree, kind, text_tree stands, original]

/-- The names that pieces mention, except empty ones. -/
def names (ps : List Piece) : List String := (ps.filterMap name?).filter (· != "")

theorem names_append (ps qs : List Piece) : names (ps ++ qs) = names ps ++ names qs := by
  unfold names
  rw [List.filterMap_append, List.filter_append]

/-- **The names in an import list are those that its pieces mention.** -/
theorem namesIn_treesOf (stands : StandsAt text line n (charsOf ps)) :
    Tree.namesIn (textOf (.ofString text)) (treesOf n ps) = names ps := by
  unfold Tree.namesIn names
  rw [filterMap_treesOf stands fun _ _ _ here => name?_tree here]

/-- **An import statement makes a line for each name that its parts mention,** and all of them are on its line. -/
theorem importLines_tree (stands : StandsAt text line n p.chars) :
    Tree.importLines (textOf (.ofString text)) (p.tree n) =
      (names p.parts).map fun name => { moduleName := name, line } := by
  cases p with
  | leaf => rfl
  | node name parts =>
    unfold Tree.importLines names
    rw [List.filterMap_filterMap, ← List.filterMap_eq_map, List.filterMap_filter, List.filterMap_filterMap]
    refine filterMap_treesOf stands fun q _ m here => ?_
    rw [name?_tree here]
    cases q.name? with
    | none => rfl
    | some name =>
      dsimp only [Option.map_some, Option.bind_some, Function.comp_apply, textOf]
      rw [line_tree here]
      by_cases empty : name = "" <;> simp [empty]

/-- The trees before the keyword of an import, and those from it on. -/
theorem splitAtImport_tree {name : String} {front back : List Piece} {keyword : Piece} (n : Nat)
    (before : ∀ p ∈ front, (p.kind != .importWord) = true) (isKeyword : keyword.kind = .importWord) :
    ((node name (front ++ keyword :: back)).tree n).splitAtImport =
      (treesOf n front, treesOf (n + (charsOf front).length) (keyword :: back)) := by
  have others : ∀ t ∈ treesOf n front, (t.kind != .importWord) = true := by
    intro t mem
    have kinds : t.kind ∈ (treesOf n front).map Tree.kind := List.mem_map_of_mem mem
    rw [map_kind_treesOf] at kinds
    obtain ⟨p, isPart, same⟩ := List.mem_map.mp kinds
    exact same ▸ before p isPart
  have stop : ¬ ((keyword.tree (n + (charsOf front).length)).kind != .importWord) = true := by
    rw [kind_tree, isKeyword]
    decide
  unfold Tree.splitAtImport
  rw [children_tree, List.span_eq_takeWhile_dropWhile, parts, treesOf_append, List.takeWhile_append_of_pos others,
    List.dropWhile_append_of_pos others, treesOf,
    List.takeWhile_cons_of_neg (p := fun t : Tree => t.kind != .importWord) stop,
    List.dropWhile_cons_of_neg (p := fun t : Tree => t.kind != .importWord) stop, List.append_nil]

/-- The level and the name of a relative name. -/
def relative (p : Piece) : Nat × String :=
  ((p.words .dots).getLast?.elim 0 (·.toList.count '.'), (p.words .dottedName).getLast?.getD "")

/-- The level and the name of the module that a piece names. -/
def origin? (p : Piece) : Option (Nat × String) :=
  match p.kind with
  | .relativeName => some p.relative
  | .dottedName => some (0, p.word)
  | _ => none

theorem relative_tree (stands : StandsAt text line n p.chars) :
    (p.tree n).relative (textOf (.ofString text)) = p.relative := by
  unfold Tree.relative relative
  rw [← map_text_childrenOf stands, ← map_text_childrenOf stands, List.getLast?_map, List.getLast?_map]
  cases ((p.tree n).childrenOf .dots).getLast? <;> cases ((p.tree n).childrenOf .dottedName).getLast? <;> rfl

/-- **A statement with a module makes one line,** with the module from what is before its keyword, the names from what
is behind it, and a star if there is one. -/
theorem fromLine?_tree {name : String} {front back : List Piece} {keyword : Piece}
    (stands : StandsAt text line n (charsOf (front ++ keyword :: back)))
    (before : ∀ p ∈ front, (p.kind != .importWord) = true) (isKeyword : keyword.kind = .importWord) :
    ((node name (front ++ keyword :: back)).tree n).fromLine? (textOf (.ofString text)) =
      (front.findSome? origin?).map fun origin =>
        { moduleName := origin.2, level := origin.1, line
          items := names back ++ if (front ++ keyword :: back).any (·.kind == .wildcard) then ["*"] else [] } := by
  have parted := stands
  rw [charsOf_eq, List.flatMap_append, ← charsOf_eq, ← charsOf_eq] at parted
  have noName : keyword.name? = none := by rw [name?, isKeyword]
  have origin : ((node name (front ++ keyword :: back)).tree n).moduleOf? (textOf (.ofString text)) =
      front.findSome? origin? := by
    unfold Tree.moduleOf?
    rw [splitAtImport_tree n before isKeyword, ← List.head?_filterMap, ← List.head?_filterMap]
    refine congrArg List.head? (filterMap_treesOf parted.left fun p _ m here => ?_)
    unfold origin?
    cases kind : p.kind <;> simp only [kind_tree, kind, relative_tree here, text_tree here]
  have items : Tree.namesIn (textOf (.ofString text)) (treesOf (n + (charsOf front).length) (keyword :: back)) =
      names back := by
    rw [namesIn_treesOf parted.right, names, List.filterMap_cons_none noName, names]
  have star : ((node name (front ++ keyword :: back)).tree n).children.any (·.kind == .wildcard) =
      (front ++ keyword :: back).any (·.kind == .wildcard) := by
    have kinds := congrArg (List.any · (· == Kind.wildcard)) (map_kind_treesOf n (front ++ keyword :: back))
    rwa [List.any_map, List.any_map] at kinds
  have start : (textOf (.ofString text)).line ((node name (front ++ keyword :: back)).tree n).start = line :=
    line_tree (p := node name _) stands
  unfold Tree.fromLine?
  rw [origin, splitAtImport_tree n before isKeyword, items, star, start]

/-! ## Validity -/

/-- Whether nodes of some kind are valid. -/
def isAdmitted : Kind → Bool
  | .error => false
  | .printStatement => false
  | .execStatement => false
  | _ => true

mutual
/-- Whether no node of a piece makes a source invalid. -/
def isValid : Piece → Bool
  | leaf name _ _ => isAdmitted (kindOfName name)
  | node name parts => isAdmitted (kindOfName name) && areValid parts
/-- Whether no node of some pieces makes a source invalid. -/
def areValid : List Piece → Bool
  | [] => true
  | p :: ps => isValid p && areValid ps
end

theorem areValid_eq (ps : List Piece) : areValid ps = ps.all isValid := by
  induction ps with
  | nil => rfl
  | cons p ps ih => rw [areValid, ih, List.all_cons]

theorem isValid_node {name : String} (admitted : isAdmitted (kindOfName name) = true)
    (valid : ∀ p ∈ ps, p.isValid = true) : (node name ps).isValid = true := by
  rw [isValid, admitted, areValid_eq, List.all_eq_true.mpr valid]
  rfl

theorem isInvalid_tree (n : Nat) (admitted : isAdmitted p.kind = true) : (p.tree n).isInvalid = false := by
  have present : (p.tree n).isMissing = false := by cases p <;> rfl
  unfold Tree.isInvalid
  rw [present, kind_tree]
  cases same : p.kind <;> rw [same] at admitted <;> first | rfl | cases admitted

mutual
/-- **A tree over a valid piece has no invalid node.** -/
theorem firstInvalid?_tree (n : Nat) : (p : Piece) → p.isValid = true → (p.tree n).firstInvalid? = none
  | leaf name blanks text, valid => by
    have admitted := isInvalid_tree (p := leaf name blanks text) n valid
    rw [tree] at admitted ⊢
    rw [Tree.firstInvalid?, admitted]
    rfl
  | node name parts, valid => by
    obtain ⟨own, below⟩ := Bool.and_eq_true_iff.mp valid
    have admitted := isInvalid_tree (p := node name parts) n own
    rw [tree] at admitted ⊢
    rw [Tree.firstInvalid?, admitted]
    exact firstInvalidOf?_treesOf n parts below
theorem firstInvalidOf?_treesOf (n : Nat) :
    (ps : List Piece) → areValid ps = true → Tree.firstInvalidOf? (treesOf n ps) = none
  | [], _ => rfl
  | p :: ps, valid => by
    obtain ⟨first, rest⟩ := Bool.and_eq_true_iff.mp valid
    rw [treesOf, Tree.firstInvalidOf?, firstInvalid?_tree n p first, firstInvalidOf?_treesOf _ ps rest]
    rfl
end

end Piece

end PyBundle.Syntax
