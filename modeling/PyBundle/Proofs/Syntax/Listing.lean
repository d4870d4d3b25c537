import PyBundle.Proofs.Syntax.Derivation

/-!
# Reading import statements back

A listing is import statements, one on each line. The grammar gives the nodes of its statements for a file
(`gives_module`). If the parser follows the grammar on it (`Listing.FollowsGrammar`), what is read of its text is what
the statements import, in order and each with the number of its line (`readImports_text`).
-/

namespace PyBundle.Syntax

open Automaton (Action State Table)
open Lexer (Source StandsAt Wanted)

/-- **Import statements,** one on each line. -/
abbrev Listing := List Statement

namespace Listing

variable {source : String} {closed : Bool}

/-- **The text of a listing.** After its last line there may be a line break or not. -/
def text (closed : Bool) : Listing → String
  | [] => ""
  | s :: rest => s.text ++ (if rest.isEmpty && !closed then "" else "\n") ++ text closed rest

/-- The nodes of statements on lines in a row, from position `n` on. -/
def trees (n : Nat) : Listing → List Tree
  | [] => []
  | s :: rest => s.piece.tree n :: trees (n + s.text.toList.length + 1) rest

/-- **The tree of a listing:** the nodes of its statements, each where its line is, below a root that covers the
text. -/
def tree (closed : Bool) (listing : Listing) : Tree :=
  .node .other false 0 (listing.text closed).toList.length (trees 0 listing)

/-- **What a listing imports.** -/
def lines (listing : Listing) : List ImportLine := (listing.zipIdx 1).flatMap fun (s, line) => s.lines line

/-- Reading the nodes of statements gives what these import. The induction moves over the lines, and what is before
the statements that are left tells their position and their line. -/
theorem importsOf_trees (front : List Char) (listing : Listing)
    (split : source.toList = front ++ (listing.text closed).toList) :
    Tree.importsOf (textOf (.ofString source)) (trees front.length listing) =
      (listing.zipIdx (front.count '\n' + 1)).flatMap fun (s, line) => s.lines line := by
  induction listing generalizing front with
  | nil => rfl
  | cons s rest ih =>
    rw [Listing.text, String.toList_append, String.toList_append] at split
    have stands : StandsAt source (front.count '\n' + 1) front.length s.piece.chars := by
      obtain ⟨back, here⟩ : ∃ back, source.toList = front ++ s.text.toList ++ back :=
        ⟨_, by rw [split, List.append_assoc, List.append_assoc]⟩
      exact s.chars_piece ▸ ⟨s.noBreak, front, back, here, rfl, rfl⟩
    rw [trees, Tree.importsOf, s.imports_piece stands, List.zipIdx_cons, List.flatMap_cons]
    congr 1
    cases rest with
    | nil => rfl
    | cons next more =>
      have onward := ih (front ++ s.text.toList ++ ['\n']) (by simp [split])
      have breaks : (front ++ s.text.toList ++ ['\n']).count '\n' = front.count '\n' + 1 := by
        rw [List.count_append, List.count_append, List.count_eq_zero.mpr s.noBreak]
        rfl
      rwa [breaks, List.length_append, List.length_append] at onward

theorem firstInvalidOf?_trees (n : Nat) (listing : Listing) : Tree.firstInvalidOf? (trees n listing) = none := by
  induction listing generalizing n with
  | nil => rfl
  | cons s rest ih =>
    rw [trees, Tree.firstInvalidOf?, Piece.firstInvalid?_tree n s.piece s.isValid_piece, ih]
    rfl

/-- **The tree of a listing is valid, and it has the imports of the listing.** -/
theorem importsOfTree_tree (closed : Bool) (listing : Listing) :
    importsOfTree (.ofString (listing.text closed)) (listing.tree closed) = .ok listing.lines := by
  have valid : (listing.tree closed).firstInvalid? = none := firstInvalidOf?_trees 0 listing
  have read : (listing.tree closed).imports (textOf (.ofString (listing.text closed))) = listing.lines :=
    importsOf_trees [] listing rfl
  rw [importsOfTree, valid, read]

/-- **The parser follows the grammar on a listing:** if the nodes of its statements are what the grammar gives for a
file, then the tree that is made of its text has them. -/
def FollowsGrammar (t : Table) (closed : Bool) (listing : Listing) : Prop :=
  Gives Grammar.python (.ref "module") [.node "module" (listing.map Statement.piece)] →
    (Parse.parse t (.ofString (listing.text closed))).map (·.toTree t) = some (listing.tree closed)

/-- **Import statements that are written down are read back.** If the parser follows the grammar on a listing, then its
text is accepted, and what is read is what the statements import. -/
theorem readImports_text (t : Table) (closed : Bool) (listing : Listing) (follows : FollowsGrammar t closed listing) :
    readImports t (listing.text closed) = .ok listing.lines := by
  obtain ⟨branch, parsed, shape⟩ := Option.map_eq_some_iff.mp (follows (gives_module listing))
  unfold readImports
  dsimp only
  rw [parsed]
  dsimp only
  rw [shape, importsOfTree_tree]

end Listing

/-! ## A listing that is parsed -/

namespace Tree

mutual
/-- Whether two trees are the same. -/
def same : Tree → Tree → Bool
  | node k m a b ts, node k' m' a' b' ts' => decide ((k, m, a, b) = (k', m', a', b')) && areSame ts ts'
/-- Whether two rows of trees are the same. -/
def areSame : List Tree → List Tree → Bool
  | [], [] => true
  | t :: ts, t' :: ts' => same t t' && areSame ts ts'
  | _, _ => false
end

mutual
theorem same_iff : (t t' : Tree) → same t t' = true ↔ t = t'
  | node k m a b ts, node k' m' a' b' ts' => by simp [same, areSame_iff ts ts', and_assoc]
theorem areSame_iff : (ts ts' : List Tree) → areSame ts ts' = true ↔ ts = ts'
  | [], [] => by simp [areSame]
  | [], _ :: _ => by simp [areSame]
  | _ :: _, [] => by simp [areSame]
  | t :: ts, t' :: ts' => by simp [areSame, same_iff t t', areSame_iff ts ts']
end

instance : DecidableEq Tree := fun t t' => decidable_of_iff _ (same_iff t t')

end Tree

/-- A state of the table of import statements, which takes each of their tokens in one way only. -/
def importState (actions : List (Nat × Action)) (gotos : List (Nat × Nat)) : State where
  core := 0
  actions := actions.foldl (fun row a => row.set! a.1 [a.2]) (Array.replicate 9 [])
  gotos := gotos.foldl (fun row g => row.set! g.1 g.2) (Array.replicate 14 0)

/-- **The table of import statements.** Of the states of Python's table those are left that the tokens of such
statements lead through, and of each what it does on these tokens. -/
def importTable : Table where
  grammar :=
    { tokens := #[.endOfText, .pattern .identifier, .fixed "import", .fixed ".", .fixed "from", .fixed ",",
        .fixed "as", .fixed "*", .layout .newline]
      names := #["_end", "identifier", "import", ".", "from", ",", "as", "*", "_newline", "module",
        "_simple_statements", "import_statement", "import_prefix", "relative_import", "import_from_statement",
        "_import_list", "aliased_import", "wildcard_import", "dotted_name", "_module_run", "_import_prefix_run",
        "_import_list_run", "_dotted_name_run"]
      visible := #[false, true, true, true, true, true, true, true, false, true, false, true, true, true, true, false,
        true, true, true, false, false, false, false]
      auxiliary := Array.replicate 19 false ++ Array.replicate 4 true
      productions := Array.replicate 14 []
      extras := []
      layoutValid := [8]
      gathered := [] }
  reductions := #[⟨9, 1, 0, []⟩, ⟨18, 1, 0, []⟩, ⟨11, 2, 0, []⟩, ⟨15, 1, 0, []⟩, ⟨12, 1, 0, []⟩, ⟨10, 2, 0, []⟩,
    ⟨19, 2, 0, []⟩, ⟨18, 2, 0, []⟩, ⟨15, 2, 0, []⟩, ⟨13, 2, 0, []⟩, ⟨20, 2, 0, []⟩, ⟨22, 2, 0, []⟩, ⟨21, 2, 0, []⟩,
    ⟨16, 3, 0, []⟩, ⟨17, 1, 0, []⟩, ⟨14, 4, 0, []⟩]
  states :=
    #[importState [] [],
      importState [(2, .shift 2 false)] [(0, 4), (1, 6), (2, 5), (10, 6)],
      importState [(1, .shift 7 false)] [(6, 8), (9, 10)],
      importState [(1, .shift 30 false), (3, .shift 13 false)] [(3, 11), (4, 12), (9, 12), (11, 13)],
      importState [(0, .accept)] [],
      importState [(8, .shift 14 false)] [],
      importState [(0, .reduce 0), (4, .shift 3 false)] [(1, 15), (5, 5)],
      importState [(3, .shift 16 false), (6, .reduce 1), (8, .reduce 1)] [(13, 17)],
      importState [(8, .reduce 2)] [],
      importState [(5, .shift 18 false)] [(12, 19)],
      importState [(5, .shift 18 false), (6, .shift 20 false), (8, .reduce 3)] [(12, 19)],
      importState [(1, .shift 30 false)] [(9, 21)],
      importState [(2, .shift 22 false)] [],
      importState [(1, .reduce 4), (3, .shift 23 false)] [],
      importState [(0, .reduce 5), (4, .reduce 5)] [],
      importState [(0, .reduce 6), (4, .reduce 6)] [],
      importState [(1, .shift 24 false)] [],
      importState [(5, .reduce 7), (8, .reduce 7)] [],
      importState [(1, .shift 7 false)] [(7, 25), (9, 26)],
      importState [(8, .reduce 8)] [],
      importState [(1, .shift 27 false)] [],
      importState [(2, .reduce 9)] [],
      importState [(1, .shift 7 false), (7, .shift 28 false)] [(6, 29), (7, 9), (8, 29), (9, 10)],
      importState [(1, .reduce 10)] [],
      importState [(5, .reduce 11), (8, .reduce 11)] [],
      importState [(8, .reduce 12)] [],
      importState [(6, .shift 20 false), (8, .reduce 12)] [],
      importState [(5, .reduce 13), (8, .reduce 13)] [],
      importState [(8, .reduce 14)] [],
      importState [(8, .reduce 15)] [],
      importState [(2, .reduce 1)] []]
  modes := #[[(0, .endOfText), (1, .pattern .identifier), (3, .fixed "."), (5, .fixed ","), (7, .fixed "*")]]
  modeOf := Array.replicate 31 0
  wanted := (Array.range 31).map fun n =>
    if [5, 7, 8, 9, 10, 17, 18, 19, 24, 25, 26, 27, 28, 29].contains n then
      some { (default : Wanted) with newline := true }
    else none
  keywords := [("import", 2), ("from", 4), ("as", 6)]

namespace Listing

/-- A statement of each form, two of them with several names. -/
def sample : Listing :=
  let a : Name := ⟨"a", by decide, by decide, by decide⟩
  let b : Name := ⟨"b", by decide, by decide, by decide⟩
  let c : Name := ⟨"c", by decide, by decide, by decide⟩
  [.importModules ⟨{ name := ⟨a, [b]⟩ }, [{ name := ⟨c, []⟩, alias? := some a }]⟩,
    .importNames (.relative 1 (some ⟨b, []⟩)) ⟨{ name := ⟨a, []⟩, alias? := some c }, [{ name := ⟨b, []⟩ }]⟩ false false,
    .importAll (.absolute ⟨c, []⟩)]

/-- The statements are parsed, and they are read back in order and each with its line. -/
theorem readImports_sample :
    sample.text true = "import a.b, c as a\nfrom ..b import a as c, b\nfrom c import *\n" ∧
      sample.lines = [{ moduleName := "a.b", line := 1 }, { moduleName := "c", line := 1 },
        { moduleName := "b", level := 2, items := ["a", "b"], line := 2 },
        { moduleName := "c", items := ["*"], line := 3 }] ∧
      readImports importTable (sample.text true) = .ok sample.lines :=
  ⟨by decide +kernel, by decide +kernel, readImports_text importTable true sample fun _ => by decide +kernel⟩

end Listing

end PyBundle.Syntax
