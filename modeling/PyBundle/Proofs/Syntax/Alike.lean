import Mathlib.Data.List.Forall2
import PyBundle.Proofs.Syntax.Listing
import PyBundle.Proofs.Syntax.Names

/-!
# Sources that differ in layout

A name that is read is the name as it is written: it is canonical only if there is no layout in it
(`readImports_spelled`). Two trees that differ only in the layout in their names are read alike without it
(`Tree.AreAlike.importsOf`), so layout makes a difference in what is read, and it is the only one.
-/

namespace PyBundle

open DottedName (IsCanonical bare ofSegments segments)

/-- **What a line imports,** without the layout in its names and wherever it stands. -/
def ImportLine.bare (l : ImportLine) : ImportLine where
  moduleName := DottedName.bare l.moduleName
  items := l.items.map fun item => if item = "*" then item else DottedName.bare item
  level := l.level

namespace Syntax

open Automaton (Table)
open Lexer (Source)

variable {name : String} {words : List String} {x x' : Text} {t t' : Tree} {ts ts' : List Tree}

/-! ## Trees that differ in layout -/

/-- **Names with the same identifiers,** which differ in the layout around their dots only. -/
def SameName (name name' : String) : Prop := ∃ words, Spelled words name.toList ∧ Spelled words name'.toList

theorem SameName.ne_empty {name' : String} (same : SameName name name') : name ≠ "" ∧ name' ≠ "" := by
  obtain ⟨words, spelled, spelled'⟩ := same
  exact ⟨spelled.ne_empty, spelled'.ne_empty⟩

/-- They stay the same as items. -/
theorem SameName.item_eq {name' : String} (same : SameName name name') :
    (if name = "*" then name else bare name) = if name' = "*" then name' else bare name' := by
  obtain ⟨words, spelled, spelled'⟩ := same
  rw [if_neg spelled.ne_star, if_neg spelled'.ne_star, spelled.bare_eq, spelled'.bare_eq]

theorem SameName.bare_eq {name' : String} (same : SameName name name') : bare name = bare name' := by
  obtain ⟨words, spelled, spelled'⟩ := same
  rw [spelled.bare_eq, spelled'.bare_eq]

/-- Lines that import the same, but for the layout in their names. -/
def SameLine (line line' : ImportLine) : Prop := line.bare = line'.bare

/-- Two lists are read alike if their first members and their others are. -/
theorem rel_filterMap_cons {α β γ δ : Type} {R : γ → δ → Prop} {f : α → Option γ} {h : β → Option δ} {a : α} {b : β}
    {as : List α} {bs : List β} (first : Option.Rel R (f a) (h b))
    (others : List.Forall₂ R (as.filterMap f) (bs.filterMap h)) :
    List.Forall₂ R ((a :: as).filterMap f) ((b :: bs).filterMap h) := by
  rw [List.filterMap_cons, List.filterMap_cons]
  generalize f a = one, h b = two at first
  cases first with
  | none => exact others
  | some same => exact .cons same others

/-- The first members of two lists whose members are the same in turn. -/
theorem rel_head? {α β : Type} {R : α → β → Prop} {as : List α} {bs : List β} (same : List.Forall₂ R as bs) :
    Option.Rel R as.head? bs.head? := by
  cases same with
  | nil => exact .none
  | cons first => exact .some first

/-- What holds of the members of two lists in turn may use that they are members. -/
theorem rel_of_mem {α β : Type} {R S : α → β → Prop} {as : List α} {bs : List β} (same : List.Forall₂ R as bs)
    (onward : ∀ a b, a ∈ as → b ∈ bs → R a b → S a b) : List.Forall₂ S as bs := by
  induction same with
  | nil => exact .nil
  | cons first _ ih =>
    refine .cons (onward _ _ List.mem_cons_self List.mem_cons_self first) (ih fun a b isA isB => ?_)
    exact onward a b (List.mem_cons_of_mem _ isA) (List.mem_cons_of_mem _ isB)

namespace Tree

/-- **Trees in a row that differ only in where their nodes are, in the layout in their names, and in leaves that say
nothing,** such as comments. The dots of a relative import are counted, so their text is the same. -/
inductive AreAlike (x x' : Text) : List Tree → List Tree → Prop
  | nil : AreAlike x x' [] []
  | cons {k : Kind} {m m' : Bool} {a b a' b' : Nat} {below below' ts ts' : List Tree}
      (names : k = .dottedName → SameName (x.slice a b) (x'.slice a' b'))
      (dots : k = .dots → x.slice a b = x'.slice a' b')
      (children : AreAlike x x' below below') (others : AreAlike x x' ts ts') :
      AreAlike x x' (node k m a b below :: ts) (node k m' a' b' below' :: ts')
  | left {m : Bool} {a b : Nat} {ts ts' : List Tree} (others : AreAlike x x' ts ts') :
      AreAlike x x' (node .other m a b [] :: ts) ts'
  | right {m : Bool} {a b : Nat} {ts ts' : List Tree} (others : AreAlike x x' ts ts') :
      AreAlike x x' ts (node .other m a b [] :: ts')

namespace AreAlike

/-- The nodes of dotted names in the second row cover names as they are written. -/
theorem spelled (alike : AreAlike x x' ts ts') :
    ∀ n ∈ nodesOfAll .dottedName ts', ∃ words, Spelled words (n.text x').toList := by
  induction alike with
  | nil => nofun
  | @cons k m m' a b a' b' below below' _ _ named _ _ _ inside ih =>
    intro n mem
    rcases List.mem_append.mp mem with here | later
    · rcases List.mem_append.mp here with self | child
      · split at self
        · rename_i isName
          obtain rfl := List.mem_singleton.mp self
          obtain ⟨words, -, written⟩ := named isName
          exact ⟨words, written⟩
        · cases self
      · exact inside n child
    · exact ih n later
  | left _ ih => exact ih
  | right _ ih => exact ih

/-- The dotted names in two rows have the same identifiers. -/
theorem texts (alike : AreAlike x x' ts ts') :
    List.Forall₂ SameName ((ts.filter (·.kind == .dottedName)).map (·.text x))
      ((ts'.filter (·.kind == .dottedName)).map (·.text x')) := by
  induction alike with
  | nil => exact .nil
  | @cons k _ _ _ _ _ _ _ _ _ _ names _ _ _ _ ih =>
    by_cases isName : k = .dottedName
    · subst isName
      exact .cons (names rfl) ih
    · rw [List.filter_cons_of_neg (by simpa [kind] using isName), List.filter_cons_of_neg (by simpa [kind] using isName)]
      exact ih
  | left _ ih => exact ih
  | right _ ih => exact ih

/-- The first dotted names in two rows have the same identifiers. -/
theorem first (alike : AreAlike x x' ts ts') :
    Option.Rel SameName ((ts.filter (·.kind == .dottedName)).head?.map (·.text x))
      ((ts'.filter (·.kind == .dottedName)).head?.map (·.text x')) := by
  rw [← List.head?_map, ← List.head?_map]
  exact rel_head? alike.texts

/-- The last dotted names in two rows have the same identifiers. -/
theorem last (alike : AreAlike x x' ts ts') :
    Option.Rel SameName ((ts.filter (·.kind == .dottedName)).getLast?.map (·.text x))
      ((ts'.filter (·.kind == .dottedName)).getLast?.map (·.text x')) := by
  rw [← List.getLast?_map, ← List.getLast?_map, ← List.head?_reverse, ← List.head?_reverse]
  exact rel_head? (List.rel_reverse alike.texts)

/-- The name that a node of a list mentions. -/
theorem name?_node (children : AreAlike x x' t.children t'.children) (isKind : t.kind = t'.kind)
    (named : t.kind = .dottedName → SameName (t.text x) (t'.text x')) :
    Option.Rel SameName (t.name? x) (t'.name? x') := by
  unfold name?
  rw [← isKind]
  split
  · rename_i isName
    exact .some (named isName)
  · exact children.first
  · exact .none

/-- **The names that two lists mention have the same identifiers.** -/
theorem names (alike : AreAlike x x' ts ts') :
    List.Forall₂ SameName (ts.filterMap (·.name? x)) (ts'.filterMap (·.name? x')) := by
  induction alike with
  | nil => exact .nil
  | @cons k m m' a b a' b' below below' _ _ named _ children _ _ ih =>
    have inside : AreAlike x x' (node k m a b below).children (node k m' a' b' below').children := children
    exact rel_filterMap_cons (inside.name?_node rfl named) ih
  | left _ ih => exact ih
  | right _ ih => exact ih

theorem namesIn (alike : AreAlike x x' ts ts') : List.Forall₂ SameName (namesIn x ts) (namesIn x' ts') := by
  refine List.rel_filter (fun _ _ same => ?_) alike.names
  simp [same.ne_empty.1, same.ne_empty.2]

theorem takeWhile (alike : AreAlike x x' ts ts') : AreAlike x x' (ts.takeWhile (·.kind != .importWord))
    (ts'.takeWhile (·.kind != .importWord)) := by
  induction alike with
  | nil => exact .nil
  | @cons k _ _ _ _ _ _ _ _ _ _ named dots children _ _ ih =>
    by_cases isWord : k = .importWord
    · subst isWord
      exact .nil
    · rw [List.takeWhile_cons_of_pos (by simpa [kind] using isWord),
        List.takeWhile_cons_of_pos (by simpa [kind] using isWord)]
      exact .cons named dots children ih
  | left _ ih => exact .left ih
  | right _ ih => exact .right ih

theorem dropWhile (alike : AreAlike x x' ts ts') : AreAlike x x' (ts.dropWhile (·.kind != .importWord))
    (ts'.dropWhile (·.kind != .importWord)) := by
  induction alike with
  | nil => exact .nil
  | @cons k _ _ _ _ _ _ _ _ _ _ named dots children others _ ih =>
    by_cases isWord : k = .importWord
    · subst isWord
      exact .cons named dots children others
    · rw [List.dropWhile_cons_of_pos (by simpa [kind] using isWord),
        List.dropWhile_cons_of_pos (by simpa [kind] using isWord)]
      exact ih
  | left _ ih => exact ih
  | right _ ih => exact ih

/-- Whether there is a node of some kind. -/
theorem any_kind (alike : AreAlike x x' ts ts') {k : Kind} (told : k ≠ .other) :
    ts.any (·.kind == k) = ts'.any (·.kind == k) := by
  have other : (Kind.other == k) = false := beq_eq_false_iff_ne.mpr told.symm
  induction alike with
  | nil => rfl
  | cons _ _ _ _ _ ih => rw [List.any_cons, List.any_cons, ih]; rfl
  | left _ ih => rw [List.any_cons, ih, kind, other, Bool.false_or]
  | right _ ih => rw [List.any_cons, ih, kind, other, Bool.false_or]

/-- The dots in two rows are the same. -/
theorem dotTexts (alike : AreAlike x x' ts ts') :
    (ts.filter (·.kind == .dots)).map (·.text x) = (ts'.filter (·.kind == .dots)).map (·.text x') := by
  induction alike with
  | nil => rfl
  | @cons k _ _ _ _ _ _ _ _ _ _ _ dots _ _ _ ih =>
    by_cases isDots : k = .dots
    · subst isDots
      exact congrArg₂ List.cons (dots rfl) ih
    · rw [List.filter_cons_of_neg (by simpa [kind] using isDots), List.filter_cons_of_neg (by simpa [kind] using isDots)]
      exact ih
  | left _ ih => exact ih
  | right _ ih => exact ih

/-- Levels and names of modules that are the same but for the layout in the names. -/
def SameOrigin (origin origin' : Nat × String) : Prop := origin.1 = origin'.1 ∧ bare origin.2 = bare origin'.2

/-- **A relative import leads as far up,** and to the same name. -/
theorem relative (children : AreAlike x x' t.children t'.children) :
    SameOrigin (t.relative x) (t'.relative x') := by
  constructor
  · have level (y : Text) (t : Tree) : (t.relative y).1 =
        ((t.childrenOf .dots).map (·.text y)).getLast?.elim 0 fun text => text.toList.count '.' := by
      rw [List.getLast?_map, Option.elim_map]
      rfl
    rw [level, level, childrenOf, childrenOf, children.dotTexts]
  · have named (y : Text) (t : Tree) :
        (t.relative y).2 = ((t.childrenOf .dottedName).getLast?.map (·.text y)).elim "" id := by
      rw [Option.elim_map]
      rfl
    have last : Option.Rel SameName ((t.childrenOf .dottedName).getLast?.map (·.text x))
        ((t'.childrenOf .dottedName).getLast?.map (·.text x')) := children.last
    rw [named, named]
    generalize (t.childrenOf .dottedName).getLast?.map (·.text x) = one,
      (t'.childrenOf .dottedName).getLast?.map (·.text x') = two at last
    cases last with
    | none => rfl
    | some same => exact same.bare_eq

/-- **The modules of two statements are the same** but for the layout in their names. -/
theorem moduleOf? (children : AreAlike x x' t.children t'.children) :
    Option.Rel SameOrigin (t.moduleOf? x) (t'.moduleOf? x') := by
  unfold Tree.moduleOf? splitAtImport
  rw [List.span_eq_takeWhile_dropWhile, List.span_eq_takeWhile_dropWhile, ← List.head?_filterMap,
    ← List.head?_filterMap]
  refine rel_head? ?_
  have front := children.takeWhile
  dsimp only
  generalize t.children.takeWhile (·.kind != .importWord) = ts, t'.children.takeWhile (·.kind != .importWord) = ts' at *
  induction front with
  | nil => exact .nil
  | @cons k m m' a b a' b' below below' _ _ named _ children _ _ ih =>
    refine rel_filterMap_cons ?_ ih
    have inside : AreAlike x x' (node k m a b below).children (node k m' a' b' below').children := children
    cases k with
    | relativeName => exact .some inside.relative
    | dottedName => exact .some ⟨rfl, (named rfl).bare_eq⟩
    | _ => exact .none
  | left _ ih => exact ih
  | right _ ih => exact ih

/-- The items of two statements are the same but for the layout in them. -/
theorem items (children : AreAlike x x' t.children t'.children) :
    (Tree.namesIn x t.splitAtImport.2).map (fun item => if item = "*" then item else bare item) =
      (Tree.namesIn x' t'.splitAtImport.2).map fun item => if item = "*" then item else bare item := by
  unfold splitAtImport
  rw [List.span_eq_takeWhile_dropWhile, List.span_eq_takeWhile_dropWhile]
  dsimp only
  have same := children.dropWhile.namesIn
  generalize Tree.namesIn x _ = names, Tree.namesIn x' _ = names' at same
  induction same with
  | nil => rfl
  | cons first _ ih => rw [List.map_cons, List.map_cons, first.item_eq, ih]

/-- **Two imports of modules make the same lines** but for the layout in their names. -/
theorem importLines (children : AreAlike x x' t.children t'.children) :
    List.Forall₂ SameLine (t.importLines x) (t'.importLines x') := by
  unfold Tree.importLines
  rw [List.filterMap_filterMap, List.filterMap_filterMap]
  generalize t.children = ts, t'.children = ts' at children
  induction children with
  | nil => exact .nil
  | @cons k m m' a b a' b' below below' _ _ named _ children _ _ ih =>
    refine rel_filterMap_cons ?_ ih
    have inside : AreAlike x x' (node k m a b below).children (node k m' a' b' below').children := children
    have mentioned := inside.name?_node rfl named
    generalize (node k m a b below).name? x = one, (node k m' a' b' below').name? x' = two at mentioned
    cases mentioned with
    | none => exact .none
    | @some name name' same =>
      have some : (name == "") = false := beq_eq_false_iff_ne.mpr same.ne_empty.1
      have some' : (name' == "") = false := beq_eq_false_iff_ne.mpr same.ne_empty.2
      dsimp only [Option.map_some, Option.bind_some]
      rw [some, some']
      refine .some ?_
      unfold SameLine ImportLine.bare
      dsimp only
      rw [same.bare_eq]
  | left _ ih => exact ih
  | right _ ih => exact ih

theorem fromLine? (children : AreAlike x x' t.children t'.children) :
    Option.Rel SameLine (t.fromLine? x) (t'.fromLine? x') := by
  have star : t.children.any (·.kind == .wildcard) = t'.children.any (·.kind == .wildcard) :=
    children.any_kind (by decide)
  have origin := children.moduleOf?
  unfold Tree.fromLine?
  rw [star]
  generalize t.moduleOf? x = one, t'.moduleOf? x' = two at origin
  cases origin with
  | none => exact .none
  | some same =>
    refine .some ?_
    unfold SameLine ImportLine.bare
    dsimp only
    rw [same.1, same.2, List.map_append, List.map_append, children.items]

theorem futureLine (children : AreAlike x x' t.children t'.children) :
    SameLine (t.futureLine x) (t'.futureLine x') := by
  unfold SameLine ImportLine.bare Tree.futureLine
  dsimp only
  rw [children.items]

/-- **What two rows import is the same** but for the layout in the names. -/
theorem importsOf (alike : AreAlike x x' ts ts') : List.Forall₂ SameLine (importsOf x ts) (importsOf x' ts') := by
  induction alike with
  | nil => exact .nil
  | @cons k m m' a b a' b' below below' _ _ _ _ children _ inside ih =>
    refine List.rel_append ?_ ih
    have parts : AreAlike x x' (node k m a b below).children (node k m' a' b' below').children := children
    cases k with
    | importStatement => exact parts.importLines
    | fromStatement =>
      have line := parts.fromLine?
      unfold imports
      generalize Tree.fromLine? x _ = one, Tree.fromLine? x' _ = two at line
      cases line with
      | none => exact .nil
      | some same => exact .cons same .nil
    | futureStatement => exact .cons parts.futureLine .nil
    | _ => exact inside
  | left _ ih => exact ih
  | right _ ih => exact ih

end AreAlike

end Tree

/-! ## Sources -/

/-- **The nodes of dotted names are those of the grammar:** what they cover are the tokens of a dotted name, with
nothing but layout before each. -/
def NamesAreGiven (t : Table) (source : String) : Prop :=
  ∀ branch, Parse.parse t (.ofString source) = some branch → ∀ n ∈ (branch.toTree t).nodesOf .dottedName,
    ∃ piece, Gives Grammar.python (.ref "dotted_name") [piece] ∧ piece.IsLaidOut ∧
      piece.word = n.text (textOf (.ofString source))

/-- **Sources that differ in layout:** their trees do, in the layout of their names. -/
def DifferInLayout (t : Table) (source source' : String) : Prop :=
  ∀ branch branch', Parse.parse t (.ofString source) = some branch → Parse.parse t (.ofString source') = some branch' →
    Tree.AreAlike (textOf (.ofString source)) (textOf (.ofString source')) [branch.toTree t] [branch'.toTree t]

/-- What is read of a source is what its tree imports. -/
theorem exists_tree_of_readImports {t : Table} {source : String} {lines : List ImportLine}
    (accepted : readImports t source = .ok lines) : ∃ branch, Parse.parse t (.ofString source) = some branch ∧
      lines = (branch.toTree t).imports (textOf (.ofString source)) := by
  unfold readImports at accepted
  dsimp only at accepted
  split at accepted
  · cases accepted
  · rename_i branch parsed
    unfold importsOfTree at accepted
    split at accepted
    · cases accepted
    · exact ⟨branch, parsed, (Except.ok.inj accepted).symm⟩

/-- The names of a tree that are read are spelled if its nodes are. -/
theorem exists_spelled_of_imports
    (spelled : ∀ n ∈ t.nodesOf .dottedName, ∃ words, Spelled words (n.text x).toList) :
    ∀ line ∈ t.imports x, ∀ name ∈ line.names, ∃ words, Spelled words name.toList := by
  intro line isLine name isName
  rcases Tree.exists_node_of_imports _ isLine isName with rfl | ⟨n, isNode, rfl⟩
  · exact ⟨["__future__"], .word (by decide +kernel)⟩
  · exact spelled n isNode

/-- A line whose names are canonical has no layout to lose. -/
theorem bare_eq_of_isCanonical {line : ImportLine}
    (spelled : ∀ name ∈ line.names, ∃ words, Spelled words name.toList)
    (canonical : ∀ name ∈ line.names, IsCanonical name) : line.bare = { line with line := 0 } := by
  have same : ∀ name ∈ line.names, bare name = name := fun name mem => by
    obtain ⟨words, written⟩ := spelled name mem
    exact written.isCanonical_iff.mp (canonical name mem)
  have module : bare line.moduleName = line.moduleName := by
    by_cases none : line.moduleName = ""
    · rw [none]
      rfl
    · exact same _ (List.mem_append_left _ (by simpa using none))
  have items : (line.items.map fun item => if item = "*" then item else bare item) = line.items := by
    refine (List.map_congr_left fun item mem => ?_).trans (List.map_id _)
    by_cases star : item = "*"
    · rw [if_pos star]
      rfl
    · rw [if_neg star]
      exact same _ (List.mem_append_right _ (List.mem_filter.mpr ⟨mem, bne_iff_ne.mpr star⟩))
  unfold ImportLine.bare
  rw [module, items]

/-- **What is read are names as they are written.** Let the nodes of dotted names be those of the grammar. Then each
name that is read spells identifiers with dots between them and layout around the dots. It is canonical, and its
segments are its identifiers, only if there is no layout in it, and its top level is the first identifier only if there
is none before the first dot. Another source that differs in such layout only is read alike but for that layout; if
there is none in either, modules, items, candidates and top levels are the same. -/
theorem readImports_spelled (t : Table) (source : String) (lines : List ImportLine)
    (accepted : readImports t source = .ok lines) (given : NamesAreGiven t source) :
    (∀ line ∈ lines, ∀ name ∈ line.names, ∃ first others, Spelled (first :: others) name.toList ∧
      bare name = ofSegments (first :: others) ∧ (IsCanonical name ↔ bare name = name) ∧
      (segments name = first :: others ↔ bare name = name) ∧
      (ImportLine.topLevelOf name = first ↔ others = [] ∨ first.toList ++ ['.'] <+: name.toList)) ∧
    ∀ source' lines', readImports t source' = .ok lines' → DifferInLayout t source source' →
      lines.map ImportLine.bare = lines'.map ImportLine.bare ∧
      ((∀ line ∈ lines, ∀ name ∈ line.names, IsCanonical name) →
        (∀ line ∈ lines', ∀ name ∈ line.names, IsCanonical name) →
        List.Forall₂ (fun line line' => line.moduleName = line'.moduleName ∧ line.items = line'.items ∧
          line.level = line'.level ∧ line.candidates = line'.candidates ∧ line.topLevel = line'.topLevel)
          lines lines') := by
  obtain ⟨branch, parsed, rfl⟩ := exists_tree_of_readImports accepted
  have spelled := exists_spelled_of_imports fun n isNode => by
    obtain ⟨piece, gives, layout, same⟩ := given branch parsed n isNode
    exact same ▸ gives.spelled layout
  refine ⟨fun line isLine name isName => ?_, fun source' lines' accepted' differ => ?_⟩
  · obtain ⟨words, written⟩ := spelled line isLine name isName
    obtain ⟨first, others, rfl⟩ := written.exists_cons
    exact ⟨first, others, written, written.bare_eq, written.isCanonical_iff, written.segments_iff,
      written.topLevelOf_iff⟩
  · obtain ⟨branch', parsed', rfl⟩ := exists_tree_of_readImports accepted'
    have alike := differ branch branch' parsed parsed'
    have same : List.Forall₂ SameLine _ _ := alike.importsOf
    simp only [Tree.importsOf, List.append_nil] at same
    have bares : ((branch.toTree t).imports (textOf (.ofString source))).map ImportLine.bare =
        ((branch'.toTree t).imports (textOf (.ofString source'))).map ImportLine.bare := by
      rw [← List.forall₂_eq_eq_eq, List.forall₂_map_left_iff, List.forall₂_map_right_iff]
      exact same
    have spelled' := exists_spelled_of_imports fun n isNode =>
      alike.spelled n (List.mem_append_left _ isNode)
    refine ⟨bares, fun canonical canonical' => ?_⟩
    refine rel_of_mem same fun line line' isLine isLine' sameLine => ?_
    have plain : { line with line := 0 } = { line' with line := 0 } := by
      rw [← bare_eq_of_isCanonical (spelled line isLine) (canonical line isLine), sameLine,
        bare_eq_of_isCanonical (spelled' line' isLine') (canonical' line' isLine')]
    obtain ⟨modules, items, levels, -⟩ := ImportLine.mk.inj plain
    refine ⟨modules, items, levels, ?_, ?_⟩
    · unfold ImportLine.candidates
      rw [modules, items]
    · unfold ImportLine.topLevel
      rw [modules]

/-! ## A name with blanks around its dot -/

/-- **Layout gets into the names that are read.** -/
theorem layout_is_read :
    readImports importTable "import a . b\n" = .ok [{ moduleName := "a . b", line := 1 }] ∧
      readImports importTable "import a.b\n" = .ok [{ moduleName := "a.b", line := 1 }] ∧
      ¬ IsCanonical "a . b" ∧ ImportLine.topLevelOf "a . b" ≠ "a" := by
  refine ⟨by decide +kernel, by decide +kernel, by decide +kernel, by decide +kernel⟩

/-- The tokens of the name with blanks around its dot are those of the grammar. -/
theorem namesAreGiven_importTable : NamesAreGiven importTable "import a . b\n" := by
  intro branch parsed n isNode
  have texts : ∀ n ∈ ((Parse.parse importTable (.ofString "import a . b\n")).map (·.toTree importTable)).elim []
      (Tree.nodesOf .dottedName), n.text (textOf (.ofString "import a . b\n")) = "a . b" := by
    decide +kernel
  rw [parsed] at texts
  have isRule : ("dotted_name", Grammar.Rule.ranked 1 (.sepBy (.ref "identifier") ".")) ∈ Grammar.python.rules := by
    unfold Grammar.python
    simp [Grammar.Python.compoundRules]
  have word (blanks text : String) (isName : text ∈ ["a", "b"]) :
      Gives Grammar.python (.ref "identifier") [.leaf "identifier" blanks text] := by
    have name : ∀ text ∈ ["a", "b"], Text.isIdentifier text = true ∧ text ∉ keywords ∧ text ≠ "__future__" := by
      decide
    obtain ⟨identifier, noKeyword, noFuture⟩ := name text isName
    exact Name.gives blanks ⟨text, identifier, noKeyword, noFuture⟩
  refine ⟨.node "dotted_name" ([.leaf "identifier" "" "a"] ++ ([.leaf "." " " "."] ++ [.leaf "identifier" " " "b"])),
    ?_, ?_, ?_⟩
  · exact .node isRule rfl (by decide +kernel) (.level ((word "" "a" (by decide)).seq
      (.left (.once ((gives_word "." " " (by decide)).seq (word " " "b" (by decide)))))))
  · exact ⟨.none, .blank (by decide) .none, .blank (by decide) .none, trivial⟩
  · rw [texts n isNode]
    decide +kernel

/-- The name is read with the blanks around its dot, and without them it is another one. -/
theorem readImports_spelled_blanks :
    readImports importTable "import a . b\n" = .ok [{ moduleName := "a . b", line := 1 }] ∧
      ∃ first others, Spelled (first :: others) "a . b".toList ∧ bare "a . b" = ofSegments (first :: others) ∧
        ¬ IsCanonical "a . b" := by
  have read : readImports importTable "import a . b\n" = .ok [{ moduleName := "a . b", line := 1 }] := by decide +kernel
  obtain ⟨names, -⟩ := readImports_spelled importTable "import a . b\n" _ read namesAreGiven_importTable
  obtain ⟨first, others, written, same, canonical, -, -⟩ := names _ List.mem_cons_self "a . b" (by decide)
  exact ⟨read, first, others, written, same, fun isCanonical =>
    absurd (canonical.mp isCanonical) (by decide +kernel)⟩

end Syntax

end PyBundle
