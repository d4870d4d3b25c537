import PyBundle.Proofs.Lexer.Source
import PyBundle.Proofs.Syntax.Names

/-!
# The nodes of a tree in order

A node is found at its address, which says which child to go to at each step from the root. The order of addresses, as
words of numbers, is the order in which a tree is walked: a node comes before what is below it, and this comes before
what is to the right. Both walks over a tree are told by its nodes in this order: the search for an invalid node
(`firstInvalid?_eq`) and the reading of imports, which passes over what is below an import (`imports_eq`).

`importsOfTree_exact` says what follows where the nodes lie in the source as the tree has them.
-/

namespace PyBundle.Syntax

open Automaton (Table)
open Lexer (Source)

variable {x : Text} {i low mid high size : Nat} {a b : List Nat} {stops : Tree → Bool} {lines others : List ImportLine}

namespace Tree

variable {t n m c : Tree} {ts : List Tree}

/-! ## Addresses -/

/-- **The node at an address.** -/
def at? (t : Tree) : List Nat → Option Tree
  | [] => some t
  | i :: a => t.children[i]?.bind (·.at? a)

/-- **A node at an address is reached** by a walk that does not go below some nodes: none of these is above it. -/
def IsReached (t : Tree) (stops : Tree → Bool) (a : List Nat) (n : Tree) : Prop :=
  t.at? a = some n ∧ ∀ b m, b <+: a → b ≠ a → t.at? b = some m → stops m = false

theorem isReached_nil : t.IsReached stops [] n ↔ t = n := by
  constructor
  · exact fun reached => Option.some.inj reached.1
  · rintro rfl
    exact ⟨rfl, fun b m before other => absurd (List.prefix_nil.mp before) other⟩

/-- **A node below the root is reached from a child** if the walk goes on at the root. -/
theorem isReached_cons : t.IsReached stops (i :: a) n ↔
    stops t = false ∧ ∃ c, t.children[i]? = some c ∧ c.IsReached stops a n := by
  constructor
  · rintro ⟨here, goesOn⟩
    obtain ⟨c, child, below⟩ := Option.bind_eq_some_iff.mp here
    have root := goesOn [] t List.nil_prefix (List.cons_ne_nil i a).symm rfl
    refine ⟨root, c, child, below, fun b m before other found => ?_⟩
    refine goesOn (i :: b) m ((List.prefix_cons_inj i).mpr before) (fun same => other (List.cons.inj same).2) ?_
    exact Option.bind_eq_some_iff.mpr ⟨c, child, found⟩
  · rintro ⟨root, c, child, below, goesOn⟩
    refine ⟨Option.bind_eq_some_iff.mpr ⟨c, child, below⟩, fun b m before other found => ?_⟩
    cases b with
    | nil => exact Option.some.inj found ▸ root
    | cons j b =>
      obtain ⟨rfl, inside⟩ := List.cons_prefix_cons.mp before
      obtain ⟨c', child', there⟩ := Option.bind_eq_some_iff.mp found
      obtain rfl := Option.some.inj (child.symm.trans child')
      exact goesOn b m inside (fun same => other (congrArg _ same)) there

/-! ## Walks -/

mutual
/-- **The nodes of a tree with their addresses,** in order, but for those below nodes where the walk stops. -/
def walk (stops : Tree → Bool) : Tree → List (List Nat × Tree)
  | node k m a b ts => ([], node k m a b ts) :: if stops (node k m a b ts) then [] else walkFrom stops 0 ts
/-- The nodes of trees in a row, the first of which is child number `i`. -/
def walkFrom (stops : Tree → Bool) (i : Nat) : List Tree → List (List Nat × Tree)
  | [] => []
  | t :: ts => (walk stops t).map (fun n => (i :: n.1, n.2)) ++ walkFrom stops (i + 1) ts
end

mutual
/-- **A walk lists the nodes that it reaches.** -/
theorem mem_walk (stops : Tree → Bool) : (t : Tree) → ∀ a n, (a, n) ∈ t.walk stops ↔ t.IsReached stops a n
  | node k m start stop ts, a, n => by
    have below : (a, n) ∈ (if stops (node k m start stop ts) then [] else walkFrom stops 0 ts) ↔
        stops (node k m start stop ts) = false ∧
          ∃ j b c, a = (0 + j) :: b ∧ ts[j]? = some c ∧ c.IsReached stops b n := by
      rw [← mem_walkFrom stops ts]
      cases stops (node k m start stop ts) <;> simp
    rw [walk, List.mem_cons, below]
    cases a with
    | nil =>
      rw [isReached_nil]
      constructor
      · rintro (same | ⟨-, j, b, c, same, -⟩)
        · exact (Prod.mk.inj same).2.symm
        · cases same
      · rintro rfl
        exact .inl rfl
    | cons i a =>
      rw [isReached_cons]
      constructor
      · rintro (same | ⟨root, j, b, c, same, child, reached⟩)
        · cases same
        · obtain ⟨rfl, rfl⟩ := List.cons.inj same
          exact ⟨root, c, (Nat.zero_add j).symm ▸ child, reached⟩
      · rintro ⟨root, c, child, reached⟩
        exact .inr ⟨root, i, a, c, by rw [Nat.zero_add], child, reached⟩
theorem mem_walkFrom (stops : Tree → Bool) : (ts : List Tree) → ∀ i a n, (a, n) ∈ walkFrom stops i ts ↔
    ∃ j b c, a = (i + j) :: b ∧ ts[j]? = some c ∧ c.IsReached stops b n
  | [], i, a, n => by simp [walkFrom]
  | t :: ts, i, a, n => by
    rw [walkFrom, List.mem_append, List.mem_map, mem_walkFrom stops ts]
    constructor
    · rintro (⟨⟨b, n⟩, mem, ⟨⟩⟩ | ⟨j, b, c, rfl, child, reached⟩)
      · exact ⟨0, b, t, rfl, rfl, (mem_walk stops t b n).mp mem⟩
      · exact ⟨j + 1, b, c, by rw [Nat.add_assoc, Nat.add_comm 1], child, reached⟩
    · rintro ⟨_ | j, b, c, rfl, child, reached⟩
      · obtain rfl := Option.some.inj child
        exact .inl ⟨(b, n), (mem_walk stops t b n).mpr reached, rfl⟩
      · exact .inr ⟨j, b, c, by rw [Nat.add_assoc, Nat.add_comm 1], child, reached⟩
end

mutual
/-- **A walk lists nodes in the order of their addresses.** -/
theorem pairwise_walk (stops : Tree → Bool) : (t : Tree) → (t.walk stops).Pairwise fun n m => n.1 < m.1
  | node k m start stop ts => by
    rw [walk, List.pairwise_cons]
    constructor
    · rintro ⟨a, n⟩ mem
      have below : (a, n) ∈ walkFrom stops 0 ts := by
        split at mem
        · cases mem
        · exact mem
      obtain ⟨j, b, c, rfl, -⟩ := (mem_walkFrom stops ts 0 a n).mp below
      exact List.nil_lt_cons _ _
    · split
      · exact .nil
      · exact pairwise_walkFrom stops ts 0
theorem pairwise_walkFrom (stops : Tree → Bool) : (ts : List Tree) → ∀ i,
    (walkFrom stops i ts).Pairwise fun n m => n.1 < m.1
  | [], _ => .nil
  | t :: ts, i => by
    rw [walkFrom, List.pairwise_append, List.pairwise_map]
    refine ⟨(pairwise_walk stops t).imp fun less => List.cons_lt_cons_iff.mpr (.inr ⟨rfl, less⟩),
      pairwise_walkFrom stops ts (i + 1), ?_⟩
    rintro _ left ⟨b, m⟩ right
    obtain ⟨n, -, rfl⟩ := List.mem_map.mp left
    obtain ⟨j, b, c, rfl, -⟩ := (mem_walkFrom stops ts (i + 1) b m).mp right
    exact List.cons_lt_cons_iff.mpr (.inl (by omega))
end

/-! ## The first invalid node -/

mutual
/-- **The first invalid node is the first one in a walk over all nodes.** -/
theorem firstInvalid?_eq : (t : Tree) →
    t.firstInvalid? = ((t.walk fun _ => false).find? (·.2.isInvalid)).map (·.2)
  | node k m start stop ts => by
    rw [firstInvalid?, walk, List.find?_cons, firstInvalidOf?_eq ts 0]
    cases (node k m start stop ts).isInvalid <;> rfl
theorem firstInvalidOf?_eq : (ts : List Tree) → ∀ i,
    firstInvalidOf? ts = ((walkFrom (fun _ => false) i ts).find? (·.2.isInvalid)).map (·.2)
  | [], _ => rfl
  | t :: ts, i => by
    rw [firstInvalidOf?, firstInvalid?_eq t, firstInvalidOf?_eq ts (i + 1), walkFrom, List.find?_append, List.find?_map]
    have same : (fun n : List Nat × Tree => n.2.isInvalid) ∘ (fun n : List Nat × Tree => (i :: n.1, n.2)) =
        fun n => n.2.isInvalid := rfl
    rw [same]
    cases (t.walk fun _ => false).find? (·.2.isInvalid) <;> rfl
end

/-- The nodes at addresses are listed by a walk that does not stop. -/
theorem mem_walk_all : (a, n) ∈ (t.walk fun _ => false) ↔ t.at? a = some n := by
  rw [mem_walk]
  exact and_iff_left fun _ _ _ _ _ => rfl

/-- **The first invalid node** is invalid, and all nodes before it are valid. -/
theorem exists_of_firstInvalid? (found : t.firstInvalid? = some n) :
    ∃ a, t.at? a = some n ∧ n.isInvalid = true ∧ ∀ b m, b < a → t.at? b = some m → m.isInvalid = false := by
  rw [firstInvalid?_eq] at found
  obtain ⟨⟨a, n⟩, first, rfl⟩ := Option.map_eq_some_iff.mp found
  obtain ⟨invalid, before, after, split, valid⟩ := List.find?_eq_some_iff_append.mp first
  have inOrder := t.pairwise_walk fun _ => false
  rw [split] at inOrder
  refine ⟨a, mem_walk_all.mp (List.mem_of_find?_eq_some first), invalid, fun b m less there => ?_⟩
  have mem := split ▸ mem_walk_all.mpr there
  rcases List.mem_append.mp mem with earlier | later
  · simpa using valid (b, m) earlier
  · rcases List.mem_cons.mp later with same | later
    · cases same
      exact absurd less (List.lt_irrefl _)
    · have greater := (List.pairwise_cons.mp (List.pairwise_append.mp inOrder).2.1).1 _ later
      exact absurd greater (List.lt_asymm less)

/-- Without one all nodes are valid. -/
theorem firstInvalid?_eq_none_iff : t.firstInvalid? = none ↔ ∀ a n, t.at? a = some n → n.isInvalid = false := by
  rw [firstInvalid?_eq, Option.map_eq_none_iff, List.find?_eq_none]
  constructor
  · exact fun valid a n there => Bool.eq_false_iff.mpr (valid (a, n) (mem_walk_all.mpr there))
  · exact fun valid n mem => Bool.eq_false_iff.mp (valid n.1 n.2 (mem_walk_all.mp mem))

/-! ## Imports -/

/-- **Whether a node is a statement that imports something.** -/
def isImport (t : Tree) : Bool := [.importStatement, .fromStatement, .futureStatement].contains t.kind

/-- **The lines of a statement** that imports something. -/
def records (x : Text) (t : Tree) : List ImportLine :=
  match t.kind with
  | .importStatement => t.importLines x
  | .fromStatement => (t.fromLine? x).toList
  | .futureStatement => [t.futureLine x]
  | _ => []

mutual
/-- **What a tree imports is what the nodes import that a walk reaches** which does not go below imports. -/
theorem imports_eq (x : Text) : (t : Tree) → t.imports x = (t.walk isImport).flatMap (·.2.records x)
  | node k m start stop ts => by
    rw [walk, List.flatMap_cons]
    cases k with
    | importStatement | fromStatement | futureStatement => exact (List.append_nil _).symm
    | _ => exact importsOf_eq x ts 0
theorem importsOf_eq (x : Text) : (ts : List Tree) → ∀ i,
    importsOf x ts = (walkFrom isImport i ts).flatMap (·.2.records x)
  | [], _ => rfl
  | t :: ts, i => by
    rw [importsOf, imports_eq x t, importsOf_eq x ts (i + 1), walkFrom, List.flatMap_append, List.flatMap_map]
end

/-- A node that imports nothing has no lines. -/
theorem records_eq_nil (other : n.isImport = false) : n.records x = [] := by
  unfold records
  unfold isImport at other
  generalize n.kind = k at other
  cases k <;> first | rfl | cases other

/-- **What a tree imports is what its imports import that are not below others.** -/
theorem imports_eq_filter (x : Text) (t : Tree) :
    t.imports x = ((t.walk isImport).filter (·.2.isImport)).flatMap (·.2.records x) := by
  rw [imports_eq]
  induction t.walk isImport with
  | nil => rfl
  | cons n listed ih =>
    rw [List.flatMap_cons, ih, List.filter_cons]
    cases isOne : n.2.isImport with
    | true => rfl
    | false => rw [records_eq_nil isOne, List.nil_append, if_neg Bool.false_ne_true]

/-! ## Where nodes lie -/

mutual
/-- **Whether a tree lies between two positions:** each node covers its children, which stand one behind the other. -/
def Lies (low high : Nat) : Tree → Prop
  | node _ _ start stop ts => low ≤ start ∧ start ≤ stop ∧ stop ≤ high ∧ LieInRow start stop ts
/-- Whether trees lie between two positions, one behind the other. -/
def LieInRow (low high : Nat) : List Tree → Prop
  | [] => True
  | t :: ts => Lies low high t ∧ LieInRow t.stop high ts
end

mutual
/-- The positions of a tree are compared node by node. -/
def decideLies (low high : Nat) : (t : Tree) → Decidable (t.Lies low high)
  | node _ _ start stop ts =>
    have := decideLieInRow start stop ts
    inferInstanceAs (Decidable (low ≤ start ∧ start ≤ stop ∧ stop ≤ high ∧ LieInRow start stop ts))
def decideLieInRow (low high : Nat) : (ts : List Tree) → Decidable (LieInRow low high ts)
  | [] => .isTrue trivial
  | t :: ts =>
    have := decideLies low high t
    have := decideLieInRow t.stop high ts
    inferInstanceAs (Decidable (t.Lies low high ∧ LieInRow t.stop high ts))
end

instance : Decidable (t.Lies low high) := decideLies low high t

namespace Lies

theorem bounds (lies : t.Lies low high) : low ≤ t.start ∧ t.start ≤ t.stop ∧ t.stop ≤ high := by
  cases t
  exact ⟨lies.1, lies.2.1, lies.2.2.1⟩

/-- The children of a tree lie in it. -/
theorem children (lies : t.Lies low high) : LieInRow t.start t.stop t.children := by
  cases t
  exact lies.2.2.2

/-- A tree lies where it starts and ends. -/
theorem within (lies : t.Lies low high) : t.Lies low t.stop := by
  cases t
  exact ⟨lies.1, lies.2.1, Nat.le_refl _, lies.2.2.2⟩

end Lies

/-- A tree in a row lies where the row does. -/
theorem LieInRow.exists_lies (lie : LieInRow low high ts) (mem : t ∈ ts) : ∃ mid, low ≤ mid ∧ t.Lies mid high := by
  induction ts generalizing low with
  | nil => cases mem
  | cons first ts ih =>
    rcases List.mem_cons.mp mem with rfl | later
    · exact ⟨low, Nat.le_refl low, lie.1⟩
    · obtain ⟨above, covers, -⟩ := lie.1.bounds
      obtain ⟨mid, behind, lies⟩ := ih lie.2 later
      exact ⟨mid, Nat.le_trans above (Nat.le_trans covers behind), lies⟩

/-- **A node lies where its tree does.** -/
theorem Lies.start_le (lies : t.Lies low high) (found : t.at? a = some n) : n.start ≤ high := by
  induction a generalizing t low high with
  | nil =>
    obtain rfl := Option.some.inj found
    obtain ⟨-, covers, below⟩ := lies.bounds
    exact Nat.le_trans covers below
  | cons i a ih =>
    obtain ⟨c, child, there⟩ := Option.bind_eq_some_iff.mp found
    obtain ⟨mid, -, inside⟩ := lies.children.exists_lies (List.mem_of_getElem? child)
    exact Nat.le_trans (ih inside there) lies.bounds.2.2

/-- **The lines of what is imported do not decrease,** and they are those of positions between two ones. -/
structure AreBetween (x : Text) (low high : Nat) (lines : List ImportLine) : Prop where
  inOrder : (lines.map (·.line)).Pairwise (· ≤ ·)
  between : ∀ l ∈ lines, x.line low ≤ l.line ∧ l.line ≤ x.line high

namespace AreBetween

theorem nil : AreBetween x low high [] := ⟨.nil, nofun⟩

theorem singleton {l : ImportLine} (above : x.line low ≤ l.line) (below : l.line ≤ x.line high) :
    AreBetween x low high [l] := ⟨List.pairwise_singleton _ _, List.forall_mem_singleton.mpr ⟨above, below⟩⟩

/-- Lines that stand one behind the other. -/
theorem append (first : AreBetween x low mid lines) (second : AreBetween x mid high others)
    (above : x.line low ≤ x.line mid) (below : x.line mid ≤ x.line high) :
    AreBetween x low high (lines ++ others) := by
  refine ⟨?_, List.forall_mem_append.mpr ⟨fun l mem => ?_, fun l mem => ?_⟩⟩
  · rw [List.map_append, List.pairwise_append]
    refine ⟨first.inOrder, second.inOrder, ?_⟩
    simp only [List.forall_mem_map]
    exact fun l mem l' mem' => Nat.le_trans (first.between l mem).2 (second.between l' mem').1
  · exact ⟨(first.between l mem).1, Nat.le_trans (first.between l mem).2 below⟩
  · exact ⟨Nat.le_trans above (second.between l mem).1, (second.between l mem).2⟩

/-- Lines between two positions are between two that are farther away. -/
theorem widen {low' high' : Nat} (inside : AreBetween x low' high' lines) (above : x.line low ≤ x.line low')
    (below : x.line high' ≤ x.line high) : AreBetween x low high lines :=
  ⟨inside.inOrder, fun l mem =>
    ⟨Nat.le_trans above (inside.between l mem).1, Nat.le_trans (inside.between l mem).2 below⟩⟩

end AreBetween

/-- The line that a name in a list makes. -/
def nameLine? (x : Text) (t : Tree) : Option ImportLine :=
  (t.name? x).bind fun name => if name == "" then none else some { moduleName := name, line := x.line t.start }

theorem importLines_eq (x : Text) (t : Tree) :
    t.importLines x = t.children.flatMap fun c => (nameLine? x c).toList := by
  rw [← List.filterMap_eq_flatMap_toList, importLines, List.filterMap_filterMap]
  refine List.filterMap_congr fun c _ => ?_
  unfold nameLine?
  cases c.name? x <;> rfl

section Lines

variable (mono : ∀ i j, i ≤ j → j ≤ size → x.line i ≤ x.line j)
include mono

/-- A line at the start of a tree. -/
theorem areBetween_toList (lies : t.Lies low high) (short : high ≤ size) (line? : Option ImportLine)
    (atStart : ∀ l ∈ line?, l.line = x.line t.start) : AreBetween x low high line?.toList := by
  obtain ⟨above, covers, below⟩ := lies.bounds
  cases line? with
  | none => exact .nil
  | some l =>
    have start := atStart l rfl
    exact .singleton (start ▸ mono _ _ above (by omega)) (start ▸ mono _ _ (by omega) short)

/-- **Each module of an import has the line of its name,** so the lines follow the names. -/
theorem areBetween_names (lie : LieInRow low high ts) (inside : low ≤ high) (short : high ≤ size) :
    AreBetween x low high (ts.flatMap fun c => (nameLine? x c).toList) := by
  induction ts generalizing low with
  | nil => exact .nil
  | cons t ts ih =>
    obtain ⟨above, covers, below⟩ := lie.1.bounds
    have here : AreBetween x low t.stop (nameLine? x t).toList := by
      refine areBetween_toList mono lie.1.within (by omega) _ fun l mem => ?_
      obtain ⟨name, -, made⟩ := Option.bind_eq_some_iff.mp mem
      split at made
      · cases made
      · cases made
        rfl
    exact here.append (ih lie.2 below) (mono _ _ (by omega) (by omega)) (mono _ _ below short)

mutual
/-- **What a tree imports has lines that do not decrease,** from that of its start to that of its end. -/
theorem areBetween_imports : (t : Tree) → ∀ {low high}, t.Lies low high → high ≤ size →
    AreBetween x low high (t.imports x)
  | node k m start stop ts, low, high, lies, short => by
    obtain ⟨above, covers, below⟩ := lies.bounds
    have lower := mono _ _ above (by omega)
    have upper := mono _ _ below short
    cases k with
    | importStatement =>
      have names := areBetween_names mono lies.children covers (Nat.le_trans below short)
      rw [← importLines_eq] at names
      exact names.widen lower upper
    | fromStatement =>
      refine areBetween_toList mono lies short _ fun l mem => ?_
      obtain ⟨origin, -, rfl⟩ := Option.map_eq_some_iff.mp mem
      rfl
    | futureStatement => exact areBetween_toList mono lies short (some _) fun l mem => by cases mem; rfl
    | _ => exact (areBetween_importsOf ts lies.children covers (Nat.le_trans below short)).widen lower upper
theorem areBetween_importsOf : (ts : List Tree) → ∀ {low high}, LieInRow low high ts → low ≤ high → high ≤ size →
    AreBetween x low high (importsOf x ts)
  | [], _, _, _, _, _ => .nil
  | t :: ts, low, high, lie, inside, short => by
    obtain ⟨above, covers, below⟩ := lie.1.bounds
    have here := areBetween_imports t lie.1.within (Nat.le_trans below short)
    have later := areBetween_importsOf ts lie.2 below short
    exact here.append later (mono _ _ (Nat.le_trans above covers) (Nat.le_trans below short)) (mono _ _ below short)
end

end Lines

end Tree

/-! ## Reading a tree -/

/-- **Where a position of a text is:** its line, counted from 1, and the bytes before it in this line. -/
def placeIn (text : String) (i : Nat) : Nat × Nat :=
  let before := text.toList.take i
  (before.count '\n' + 1, (String.ofList (before.rtakeWhile (· != '\n'))).utf8ByteSize)

/-- The place of a position is its line and its column. -/
theorem placeIn_eq {source : String} (within : i ≤ source.toList.length) :
    placeIn source i = ((Source.ofString source).line i, (Source.ofString source).column i) := by
  rw [Source.line_ofString within, Source.column_ofString within]
  rfl

section Reading

variable {s : Source} {tree : Tree} {e : ParseError}

/-- **A tree is refused because of its first invalid node.** -/
theorem importsOfTree_eq_error_iff : importsOfTree s tree = .error e ↔
    ∃ n, tree.firstInvalid? = some n ∧ e = .invalid (s.line n.start) (s.column n.start) := by
  unfold importsOfTree
  cases tree.firstInvalid? with
  | none => simp
  | some n => simp [eq_comm]

/-- **The imports of a tree are read** if it has no invalid node. -/
theorem importsOfTree_eq_ok_iff : importsOfTree s tree = .ok lines ↔
    tree.firstInvalid? = none ∧ lines = tree.imports (textOf s) := by
  unfold importsOfTree
  cases tree.firstInvalid? with
  | none => simp [eq_comm]
  | some n => simp

/-- **A tree is refused if and only if one of its nodes is invalid.** -/
theorem exists_importsOfTree_eq_error_iff :
    (∃ e, importsOfTree s tree = .error e) ↔ ∃ a n, tree.at? a = some n ∧ n.isInvalid = true := by
  constructor
  · rintro ⟨e, failed⟩
    obtain ⟨n, found, -⟩ := importsOfTree_eq_error_iff.mp failed
    obtain ⟨a, there, invalid, -⟩ := Tree.exists_of_firstInvalid? found
    exact ⟨a, n, there, invalid⟩
  · rintro ⟨a, n, there, invalid⟩
    cases found : tree.firstInvalid? with
    | none => cases invalid.symm.trans (Tree.firstInvalid?_eq_none_iff.mp found a n there)
    | some m => exact ⟨_, importsOfTree_eq_error_iff.mpr ⟨m, found, rfl⟩⟩

end Reading

/-- **What is read out of a tree.** A tree is refused if and only if one of its nodes is invalid, and then the place of
the first invalid node in the order of the walk is told. Otherwise its imports that are not below other imports are read
one after the other, each of them once, and the lines of what they import do not decrease. All nodes lie in the source,
each in its parent and behind its elder siblings. -/
theorem importsOfTree_exact (source : String) (tree : Tree) (lies : tree.Lies 0 source.toList.length) :
    let s := Source.ofString source
    ((∃ e, importsOfTree s tree = .error e) ↔ ∃ a n, tree.at? a = some n ∧ n.isInvalid = true) ∧
    (∀ e, importsOfTree s tree = .error e → ∃ a n, tree.at? a = some n ∧ n.isInvalid = true ∧
      (∀ b m, b < a → tree.at? b = some m → m.isInvalid = false) ∧
      e = .invalid (placeIn source n.start).1 (placeIn source n.start).2) ∧
    (∀ lines, importsOfTree s tree = .ok lines →
      (∃ statements : List (List Nat × Tree), (statements.map (·.1)).Pairwise (· < ·) ∧
        (∀ a n, (a, n) ∈ statements ↔ n.isImport = true ∧ tree.at? a = some n ∧
          ∀ b m, b <+: a → b ≠ a → tree.at? b = some m → m.isImport = false) ∧
        lines = statements.flatMap fun n => n.2.records (textOf s)) ∧
      (lines.map (·.line)).Pairwise (· ≤ ·)) ∧
    ∀ t, (Parse.parse t s).map (·.toTree t) = some tree → readImports t source = importsOfTree s tree := by
  intro s
  refine ⟨exists_importsOfTree_eq_error_iff, fun e failed => ?_, fun lines read => ?_, fun t grammatical => ?_⟩
  · obtain ⟨n, found, rfl⟩ := importsOfTree_eq_error_iff.mp failed
    obtain ⟨a, there, invalid, first⟩ := Tree.exists_of_firstInvalid? found
    exact ⟨a, n, there, invalid, first, by rw [placeIn_eq (lies.start_le there)]⟩
  · obtain ⟨-, rfl⟩ := importsOfTree_eq_ok_iff.mp read
    refine ⟨⟨(tree.walk Tree.isImport).filter (·.2.isImport), ?_, fun a n => ?_, tree.imports_eq_filter _⟩, ?_⟩
    · rw [List.pairwise_map]
      exact (tree.pairwise_walk Tree.isImport).filter _
    · rw [List.mem_filter, tree.mem_walk, and_comm]
      rfl
    · have mono : ∀ i j, i ≤ j → j ≤ source.toList.length → (textOf s).line i ≤ (textOf s).line j :=
        fun _ _ first within => Source.line_mono first within
      exact (Tree.areBetween_imports mono tree lies (Nat.le_refl _)).inOrder
  · obtain ⟨branch, parsed, rfl⟩ := Option.map_eq_some_iff.mp grammatical
    unfold readImports
    dsimp only
    rw [parsed]

/-! ## Two texts -/

namespace Tree

/-- A node that nothing is missing from. -/
def inner (k : Kind) (start stop : Nat) (ts : List Tree) : Tree := node k false start stop ts

/-- A leaf that says nothing. -/
def word (start stop : Nat) : Tree := inner .other start stop []

/-- The tree of `import b, c` below a condition and `from . import d` behind it. -/
def conditional : Tree :=
  inner .other 0 36 [
    inner .other 0 19 [word 0 2, word 3 4, word 4 5, inner .other 8 19 [
      inner .importStatement 8 19 [inner .importWord 8 14 [], inner .dottedName 15 16 [word 15 16], word 16 17,
        inner .dottedName 18 19 [word 18 19]]]],
    inner .fromStatement 20 35 [word 20 24, inner .relativeName 25 26 [inner .dots 25 26 [word 25 26]],
      inner .importWord 27 33 [], inner .dottedName 34 35 [word 34 35]]]

/-- The tree of a statement of Python 2 behind another statement. -/
def outdated : Tree :=
  inner .other 0 15 [inner .other 0 5 [inner .other 0 5 [word 0 1, word 2 3, word 4 5]], word 5 6,
    inner .printStatement 7 14 [word 7 12, word 13 14]]

end Tree

/-- The imports of the one tree are read in order, with their lines, and the other one is refused at the bytes before
the statement. -/
theorem importsOfTree_exact_both :
    let read : List ImportLine := [{ moduleName := "b", line := 2 }, { moduleName := "c", line := 2 },
      { moduleName := "", level := 1, items := ["d"], line := 3 }]
    Tree.conditional.Lies 0 "if a:\n  import b, c\nfrom . import d\n".toList.length ∧
      importsOfTree (.ofString "if a:\n  import b, c\nfrom . import d\n") Tree.conditional = .ok read ∧
      (read.map (·.line)).Pairwise (· ≤ ·) ∧
    Tree.outdated.Lies 0 "é = 1; print b\n".toList.length ∧
      importsOfTree (.ofString "é = 1; print b\n") Tree.outdated = .error (.invalid 1 8) ∧
      ∃ a n, Tree.outdated.at? a = some n ∧ n.isInvalid = true ∧ placeIn "é = 1; print b\n" n.start = (1, 8) := by
  intro read
  have lies : Tree.conditional.Lies 0 "if a:\n  import b, c\nfrom . import d\n".toList.length := by decide +kernel
  have lies' : Tree.outdated.Lies 0 "é = 1; print b\n".toList.length := by decide +kernel
  have accepted : importsOfTree (.ofString "if a:\n  import b, c\nfrom . import d\n") Tree.conditional = .ok read := by
    decide +kernel
  have refused : importsOfTree (.ofString "é = 1; print b\n") Tree.outdated = .error (.invalid 1 8) := by decide +kernel
  obtain ⟨-, -, each, -⟩ := importsOfTree_exact _ Tree.conditional lies
  obtain ⟨-, told, -, -⟩ := importsOfTree_exact _ Tree.outdated lies'
  obtain ⟨a, n, there, invalid, -, place⟩ := told _ refused
  obtain ⟨line, column⟩ := ParseError.invalid.inj place
  exact ⟨lies, accepted, (each read accepted).2, lies', refused, a, n, there, invalid,
    Prod.ext line.symm column.symm⟩

end PyBundle.Syntax
