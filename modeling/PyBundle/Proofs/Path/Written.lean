import PyBundle.FileSystem.Writing
import PyBundle.Path.Normal
import PyBundle.Proofs.Bundle.Roots
import PyBundle.Proofs.Module.FileNames

/-!
# Steps of paths that are made from others

A path is made from others by joining, by dropping slashes at its end, by going to its parent and by making it
absolute. Each of these is told by where the new path starts and by its steps.
-/

namespace PyBundle.Path

variable {p q directory : Path} {name : String} {names : List String}

/-! ## Joining -/

/-- What is joined to a path starts where the path does. -/
theorem isAbsolute_join_of_written (written : p.isEmpty = false) (relative : q.isAbsolute = false) :
    (p.join q).isAbsolute = p.isAbsolute := by
  have first : p.text.toList ≠ [] := by
    simpa [isEmpty] using written
  obtain ⟨between, -, text⟩ := exists_text_join p relative
  unfold isAbsolute
  rw [text, String.toList_append, String.toList_append, List.append_assoc, List.head?_append_of_ne_nil _ first]

theorem isEmpty_join (written : p.isEmpty = false) (relative : q.isAbsolute = false) :
    (p.join q).isEmpty = false := by
  have first : p.text ≠ "" := by
    simpa [isEmpty] using written
  obtain ⟨between, -, text⟩ := exists_text_join p relative
  simp [isEmpty, text, first]

/-- A relative path behind another one starts as that does. -/
theorem lead_join_of_written (written : p.isEmpty = false) (relative : q.isAbsolute = false) :
    (p.join q).lead = p.lead := by
  obtain ⟨front, before, joined⟩ := pieces_join written relative
  have some : front ≠ [] := by
    rintro rfl
    have pieces : p.pieces = [[]] := before.resolve_left p.pieces_ne_nil
    have text : p.text.toList = [] := by rw [← p.intercalate_pieces, pieces, List.intercalate_singleton]
    cases written.symm.trans (beq_iff_eq.mpr (String.toList_eq_nil_iff.mp text))
  have head : (p.join q).pieces.head? = p.pieces.head? := by
    rw [joined, List.head?_append_of_ne_nil _ some]
    rcases before with same | same
    · rw [same]
    · rw [same, List.head?_append_of_ne_nil _ some]
  unfold lead
  rw [isAbsolute_join_of_written written relative, head]

theorem join_of_isEmpty (empty : p.isEmpty = true) : p.join q = q := by
  unfold join
  rw [empty, Bool.or_true, if_pos rfl]

/-- A file name is the only step of its path. -/
theorem steps_of_isFileName (isName : IsFileName name) : steps ⟨name⟩ = [.name name] := by
  have proper : ∀ other ∈ [name], IsFileName other := by simpa using isName
  simpa [ofNames] using steps_ofNames proper (List.cons_ne_nil name [])

/-- **A file name behind a path is a step more.** -/
theorem steps_push (written : p.isEmpty = false) (isName : IsFileName name) :
    (p.push name).steps = p.steps ++ [.name name] := by
  unfold push
  rw [steps_join written isName.relative, steps_of_isFileName isName]

theorem isAbsolute_ofNames (proper : ∀ name ∈ names, IsFileName name) : (ofNames names).isAbsolute = false := by
  cases names with
  | nil => decide
  | cons first rest =>
    have split := pieces_ofNames proper (List.cons_ne_nil first rest)
    refine Bool.eq_false_iff.mpr fun absolute => ?_
    obtain ⟨others, same⟩ := exists_pieces_of_isAbsolute absolute
    rw [same] at split
    have empty : first.toList = [] := (List.cons.inj split).1.symm
    exact (proper first List.mem_cons_self).notEmpty (String.toList_eq_nil_iff.mp empty)

/-- A path of file names is empty if there are none. -/
theorem isEmpty_ofNames (proper : ∀ name ∈ names, IsFileName name) : (ofNames names).isEmpty = decide (names = []) := by
  rcases List.eq_nil_or_concat names with rfl | ⟨before, last, rfl⟩
  · decide
  · rw [List.concat_eq_append] at proper ⊢
    obtain ⟨front, text⟩ := ofNames_concat before last
    have isLast : IsFileName last := proper last (by simp)
    have same : ofNames (before ++ [last]) = ⟨front ++ last⟩ := congrArg Path.mk text
    rw [same, (isLast.endsWithSlash front).1, decide_eq_false (List.concat_ne_nil _ _)]

/-- File names go on with another one. -/
theorem forall_isFileName_concat (proper : ∀ other ∈ names, IsFileName other) (isName : IsFileName name) :
    ∀ other ∈ names ++ [name], IsFileName other :=
  List.forall_mem_append.mpr ⟨proper, List.forall_mem_singleton.mpr isName⟩

/-- The last of some file names is the one at the end of their path. -/
theorem fileName?_ofNames (proper : ∀ other ∈ names ++ [name], IsFileName other) :
    (ofNames (names ++ [name])).fileName? = some name := by
  unfold fileName?
  rw [components_eq, steps_ofNames proper (List.concat_ne_nil _ _), List.map_append, ← List.append_assoc,
    List.map_singleton, List.getLast?_concat]
  rfl

/-- **The components of a path through file names** are these names. -/
theorem components_ofNames (proper : ∀ name ∈ names, IsFileName name) :
    (ofNames names).components = names.map .name := by
  rcases List.eq_nil_or_concat names with rfl | ⟨before, last, rfl⟩
  · decide
  rw [List.concat_eq_append] at proper ⊢
  have lead : (ofNames (before ++ [last])).lead = [] := by
    unfold lead
    rw [isAbsolute_ofNames proper, if_neg Bool.false_ne_true, pieces_ofNames proper (by simp), if_neg]
    intro here
    obtain ⟨name, isName, text⟩ := List.mem_map.mp (List.mem_of_head? here)
    exact (proper name isName).notHere (String.toList_inj.mp text)
  rw [components_eq, lead, steps_ofNames proper (by simp), List.nil_append]

/-- A path of names alone starts with its steps. -/
theorem lead_eq_nil_of_names (plain : ∀ c ∈ p.components, ∃ name, c = .name name) : p.lead = [] := by
  rw [components_eq] at plain
  refine List.eq_nil_iff_forall_not_mem.mpr fun c mem => ?_
  obtain ⟨name, rfl⟩ := plain c (List.mem_append_left _ mem)
  cases not_isStep_of_mem_lead mem

/-- A path of names alone is relative, and its steps are the names. -/
theorem exists_names (plain : ∀ c ∈ p.components, ∃ name, c = .name name) :
    p.isAbsolute = false ∧ ∃ names : List String, p.steps = names.map .name := by
  constructor
  · refine Bool.eq_false_iff.mpr fun absolute => ?_
    cases (isAbsolute_iff_lead.mp absolute).symm.trans (lead_eq_nil_of_names plain)
  · rw [components_eq] at plain
    refine ⟨p.steps.filterMap Component.name?, ?_⟩
    have each : ∀ c ∈ p.steps, ∃ name, c = .name name := fun c mem =>
      plain c (List.mem_append_right _ mem)
    generalize p.steps = steps at each ⊢
    induction steps with
    | nil => rfl
    | cons c steps ih =>
      obtain ⟨⟨name, rfl⟩, others⟩ := List.forall_mem_cons.mp each
      exact congrArg (Component.name name :: ·) (ih others)

/-- **A path goes on from another one** through file names. -/
structure GoesOn (p : Path) (names : List String) (q : Path) : Prop where
  written : q.isEmpty = false
  start : q.isAbsolute = p.isAbsolute
  steps : q.steps = p.steps ++ names.map .name
  proper : ∀ name ∈ names, IsFileName name

theorem goesOn_join {relative : Path} (written : p.isEmpty = false) (start : relative.isAbsolute = false)
    (steps : relative.steps = names.map .name) : p.GoesOn names (p.join relative) where
  written := isEmpty_join written start
  start := isAbsolute_join_of_written written start
  steps := by rw [steps_join written start, steps]
  proper := fun name mem => isFileName_of_mem_steps (p := relative) (by simp [steps, mem])

/-- From the empty path, too, a path goes on that says something. -/
theorem goesOn_join_of_written {relative : Path} (written : (p.join relative).isEmpty = false)
    (start : relative.isAbsolute = false) (steps : relative.steps = names.map .name) :
    p.GoesOn names (p.join relative) := by
  cases empty : p.isEmpty with
  | false => exact goesOn_join empty start steps
  | true =>
    have joined : p.join relative = relative := join_of_isEmpty empty
    have nothing : p = ⟨""⟩ := congrArg Path.mk (eq_of_beq empty)
    rw [joined] at written ⊢
    subst nothing
    exact ⟨written, start, steps, fun name mem => isFileName_of_mem_steps (p := relative) (by simp [steps, mem])⟩

theorem isEmpty_push (p : Path) (isName : IsFileName name) : (p.push name).isEmpty = false := by
  refine Bool.eq_false_iff.mpr fun empty => isName.notEmpty ?_
  obtain ⟨between, -, text⟩ := exists_text_join p isName.relative
  have nothing : (p.push name).text = "" := eq_of_beq empty
  exact (String.append_eq_empty_iff.mp (text.symm.trans nothing)).2

/-- **Any path goes on to a name behind it.** -/
theorem goesOn_push (p : Path) (isName : IsFileName name) : p.GoesOn [name] (p.push name) :=
  goesOn_join_of_written (p.isEmpty_push isName) isName.relative (steps_of_isFileName isName)

theorem goesOn_join_ofNames (written : p.isEmpty = false) (proper : ∀ name ∈ names, IsFileName name) :
    p.GoesOn names (p.join (ofNames names)) := by
  refine goesOn_join written (isAbsolute_ofNames proper) ?_
  cases names with
  | nil => rfl
  | cons first rest => exact steps_ofNames proper (List.cons_ne_nil _ _)

theorem GoesOn.trans {r : Path} {others : List String} (first : p.GoesOn names q) (second : q.GoesOn others r) :
    p.GoesOn (names ++ others) r where
  written := second.written
  start := second.start.trans first.start
  steps := by rw [second.steps, first.steps, List.map_append, List.append_assoc]
  proper := fun name mem => (List.mem_append.mp mem).elim (first.proper name) (second.proper name)

/-- File names do not lead up. -/
theorem GoesOn.up_notMem_steps (onward : p.GoesOn names q) (level : .up ∉ p.steps) : .up ∉ q.steps := by
  rw [onward.steps]
  simpa using level

/-- File names are pushed one behind the other. -/
theorem goesOn_foldl_push (written : p.isEmpty = false) (proper : ∀ name ∈ names, IsFileName name) :
    p.GoesOn names (names.foldl push p) := by
  induction names generalizing p with
  | nil => exact ⟨written, rfl, (List.append_nil _).symm, proper⟩
  | cons name rest ih =>
    obtain ⟨isName, others⟩ := List.forall_mem_cons.mp proper
    have first := p.goesOn_push isName
    exact first.trans (ih first.written others)

/-! ## Slashes at the end -/

/-- Slashes at the end of a text are followed by nothing. -/
theorem splitOn_append_replicate (cs : List Char) (n : Nat) :
    (cs ++ List.replicate n '/').splitOn '/' = cs.splitOn '/' ++ List.replicate n [] := by
  induction n with
  | zero => simp
  | succ n ih =>
    rw [List.replicate_succ', ← List.append_assoc, List.splitOn_append_cons_self, ih, List.splitOn_nil,
      List.append_assoc, ← List.replicate_succ']

/-- **A path without the slashes at its end** is a front of it that is not empty, or the path itself. -/
theorem exists_dropSlashes (written : p.isEmpty = false) :
    ∃ n, p.text.toList = (FileSystem.dropSlashes p).text.toList ++ List.replicate n '/' ∧
      (FileSystem.dropSlashes p).isEmpty = false := by
  unfold FileSystem.dropSlashes
  extract_lets kept
  split
  · exact ⟨0, by simp, written⟩
  · rename_i some
    have split : p.text.toList = kept ++ (p.text.toList.reverse.takeWhile (· == '/')).reverse := by
      unfold kept
      rw [← List.reverse_append, List.takeWhile_append_dropWhile, List.reverse_reverse]
    have slashes : ∀ c ∈ (p.text.toList.reverse.takeWhile (· == '/')).reverse, c = '/' := fun c mem =>
      eq_of_beq (List.all_eq_true.mp (List.all_takeWhile (p := (· == '/'))) c (List.mem_reverse.mp mem))
    refine ⟨(p.text.toList.reverse.takeWhile (· == '/')).reverse.length, ?_, ?_⟩
    · rw [String.toList_ofList, ← List.eq_replicate_of_mem slashes]
      exact split
    · unfold isEmpty
      refine beq_false_of_ne fun empty => some ?_
      rw [List.isEmpty_iff]
      exact String.ofList_injective empty

/-- **Slashes at the end of a path are no steps.** -/
theorem steps_dropSlashes (written : p.isEmpty = false) : (FileSystem.dropSlashes p).steps = p.steps := by
  obtain ⟨n, text, -⟩ := exists_dropSlashes written
  unfold steps pieces
  rw [text, splitOn_append_replicate, List.filterMap_append]
  simp [Component.ofPiece?]

theorem isAbsolute_dropSlashes (written : p.isEmpty = false) :
    (FileSystem.dropSlashes p).isAbsolute = p.isAbsolute := by
  obtain ⟨n, text, some⟩ := exists_dropSlashes written
  have first : (FileSystem.dropSlashes p).text.toList ≠ [] := by
    simpa [isEmpty] using some
  unfold isAbsolute
  rw [text, List.head?_append_of_ne_nil _ first]

/-! ## Parents -/

/-- What is left of pieces when what says nothing is dropped at their end ends with a component. -/
theorem exists_concat_of_dropBlankEnd {pieces before : List (List Char)} {piece : List Char}
    (reversed : (dropBlankEnd pieces).reverse = piece :: before) :
    ∃ c, Component.ofPiece? piece = some c ∧
      pieces.filterMap Component.ofPiece? = before.reverse.filterMap Component.ofPiece? ++ [c] := by
  have split : dropBlankEnd pieces = before.reverse ++ [piece] := by
    rw [← List.reverse_reverse (dropBlankEnd pieces), reversed, List.reverse_cons]
  have some : (Component.ofPiece? piece).isNone = false := by
    unfold dropBlankEnd at reversed
    rw [List.reverse_reverse] at reversed
    have head := List.head?_dropWhile_not (fun piece => (Component.ofPiece? piece).isNone) pieces.reverse
    rw [reversed] at head
    simpa using head
  obtain ⟨c, is⟩ := Option.isSome_iff_exists.mp (by simpa using some)
  refine ⟨c, is, ?_⟩
  rw [← filterMap_dropBlankEnd, split, List.filterMap_append, List.filterMap_cons_some is, List.filterMap_nil]

/-- Pieces without a slash are the pieces of the path that they make up. -/
theorem pieces_joinPieces {pieces : List (List Char)} (free : ∀ piece ∈ pieces, '/' ∉ piece)
    (some : pieces ≠ []) : Path.pieces ⟨joinPieces pieces⟩ = pieces := by
  unfold Path.pieces joinPieces
  rw [String.toList_intercalate, List.map_map, Text.toList_comp_ofList, List.map_id]
  exact List.splitOn_intercalate '/' free some

/-- A path whose first piece is empty starts at the root, if it has another one. -/
theorem isAbsolute_of_pieces {rest : List (List Char)} (split : p.pieces = [] :: rest) (some : rest ≠ []) :
    p.isAbsolute = true := by
  unfold isAbsolute
  rw [text_eq_of_pieces_eq split some, String.toList_append]
  rfl

/-- What is kept before a component is a front of all pieces. -/
theorem dropBlankEnd_isPrefix {pieces before : List (List Char)} {piece : List Char}
    (reversed : (dropBlankEnd pieces).reverse = piece :: before) : dropBlankEnd before.reverse <+: pieces := by
  have split : dropBlankEnd pieces = before.reverse ++ [piece] := by
    rw [← List.reverse_reverse (dropBlankEnd pieces), reversed, List.reverse_cons]
  obtain ⟨blank, kept, -⟩ := exists_dropBlankEnd_append before.reverse
  obtain ⟨blank', whole, -⟩ := exists_dropBlankEnd_append pieces
  have inside : dropBlankEnd before.reverse <+: before.reverse := ⟨blank, kept.symm⟩
  have front : before.reverse <+: pieces := ⟨piece :: blank', by rw [whole, split]; simp⟩
  exact inside.trans front

/-- What is kept of pieces does not end with a piece that is no component. -/
theorem ne_nil_of_dropBlankEnd {pieces kept : List (List Char)} {first : List Char}
    (blank : Component.ofPiece? first = none) (split : dropBlankEnd pieces = first :: kept) : kept ≠ [] := by
  rintro rfl
  have reversed : (dropBlankEnd pieces).reverse = first :: [] := by rw [split]; rfl
  obtain ⟨c, is, -⟩ := exists_concat_of_dropBlankEnd reversed
  cases blank.symm.trans is

/-- A path with a `.` at its front, made of what is kept of pieces behind it. -/
theorem steps_here {pieces rest : List (List Char)} (free : ∀ piece ∈ dropBlankEnd pieces, '/' ∉ piece)
    (front : dropBlankEnd pieces <+: [] :: rest) :
    steps ⟨"." ++ joinPieces (dropBlankEnd pieces)⟩ = pieces.filterMap Component.ofPiece? ∧
      isAbsolute ⟨"." ++ joinPieces (dropBlankEnd pieces)⟩ = false := by
  constructor
  · cases kept : dropBlankEnd pieces with
    | nil =>
      rw [← filterMap_dropBlankEnd, kept]
      decide
    | cons first others =>
      rw [kept] at free front
      obtain ⟨rfl, -⟩ := List.cons_prefix_cons.mp front
      have some := ne_nil_of_dropBlankEnd rfl kept
      have text : "." ++ joinPieces ([] :: others) = joinPieces (['.'] :: others) := by
        obtain ⟨next, others, rfl⟩ := List.exists_cons_of_ne_nil some
        simp only [joinPieces, List.map_cons, String.ofList_nil, String.intercalate_cons_cons, String.empty_append]
        rw [← String.append_assoc]
      have free' : ∀ piece ∈ ['.'] :: others, '/' ∉ piece :=
        List.forall_mem_cons.mpr ⟨by decide, (List.forall_mem_cons.mp free).2⟩
      have whole := filterMap_dropBlankEnd pieces
      rw [kept] at whole
      unfold steps
      rw [text, pieces_joinPieces free' (List.cons_ne_nil _ _), ← whole]
      rfl
  · unfold isAbsolute
    rw [String.toList_append]
    rfl

/-- A path that is made of what is kept of the pieces of a relative path. -/
theorem steps_kept {pieces rest : List (List Char)} {first : List Char}
    (free : ∀ piece ∈ dropBlankEnd pieces, '/' ∉ piece) (front : dropBlankEnd pieces <+: first :: rest)
    (some : first ≠ []) :
    steps ⟨joinPieces (dropBlankEnd pieces)⟩ = pieces.filterMap Component.ofPiece? ∧
      isAbsolute ⟨joinPieces (dropBlankEnd pieces)⟩ = false := by
  rw [← filterMap_dropBlankEnd]
  cases kept : dropBlankEnd pieces with
  | nil => decide
  | cons first' others =>
    rw [kept] at free front
    obtain ⟨rfl, -⟩ := List.cons_prefix_cons.mp front
    have split := pieces_joinPieces free (List.cons_ne_nil _ _)
    refine ⟨by unfold steps; rw [split], Bool.eq_false_iff.mpr fun absolute => ?_⟩
    obtain ⟨others', same⟩ := exists_pieces_of_isAbsolute absolute
    rw [split] at same
    exact some (List.cons.inj same).1

/-- A path that starts at the root has a parent if it has a step. -/
theorem parent_spec_of_isAbsolute (absolute : p.isAbsolute = true) (parent : p.parent? = some q) :
    ∃ c, p.steps = q.steps ++ [c] ∧ q.isAbsolute = p.isAbsolute := by
  obtain ⟨rest, split⟩ := exists_pieces_of_isAbsolute absolute
  have steps : p.steps = rest.filterMap Component.ofPiece? := by
    unfold Path.steps
    rw [split]
    rfl
  unfold parent? at parent
  rw [split] at parent
  dsimp only at parent
  rw [absolute, if_pos rfl, if_pos rfl] at parent
  split at parent
  · rename_i piece before reversed
    obtain ⟨c, -, whole⟩ := exists_concat_of_dropBlankEnd reversed
    have front : dropBlankEnd before.reverse <+: rest := dropBlankEnd_isPrefix reversed
    have free : ∀ piece ∈ dropBlankEnd before.reverse, '/' ∉ piece := fun piece mem =>
      slash_notMem_of_mem_pieces (split ▸ List.mem_cons_of_mem _ (front.subset mem))
    cases parent
    rw [absolute, steps, whole]
    exact ⟨c, by rw [steps_of_text free, filterMap_dropBlankEnd], isAbsolute_parentOf before.reverse⟩
  · cases parent

/-- The parent of a path with a `.` at its front has it, too, or is empty if there is no step. -/
theorem parent_spec_of_here {rest : List (List Char)} (split : p.pieces = ['.'] :: rest)
    (relative : p.isAbsolute = false) (parent : p.parent? = some q) :
    (p.steps = [] ∧ q.isEmpty = true) ∨ ∃ c, p.steps = q.steps ++ [c] ∧ q.isAbsolute = p.isAbsolute := by
  have steps : p.steps = ([] :: rest).filterMap Component.ofPiece? := by
    unfold Path.steps
    rw [split]
    rfl
  unfold parent? at parent
  rw [split] at parent
  simp only [relative, Bool.false_eq_true, if_false, if_true] at parent
  cases rest with
  | nil =>
    cases parent
    exact .inl ⟨steps, rfl⟩
  | cons next rest =>
    rw [List.isEmpty_cons, if_neg Bool.false_ne_true] at parent
    split at parent
    · rename_i piece before reversed
      obtain ⟨c, -, whole⟩ := exists_concat_of_dropBlankEnd reversed
      have front : dropBlankEnd before.reverse <+: [] :: next :: rest := dropBlankEnd_isPrefix reversed
      have free : ∀ piece ∈ dropBlankEnd before.reverse, '/' ∉ piece := by
        intro piece mem
        rcases List.mem_cons.mp (front.subset mem) with rfl | later
        · exact List.not_mem_nil
        · exact slash_notMem_of_mem_pieces (split ▸ List.mem_cons_of_mem _ later)
      obtain ⟨kept, start⟩ := steps_here free front
      cases parent
      exact .inr ⟨c, by rw [steps, whole, kept], start.trans relative.symm⟩
    · rename_i none
      cases parent
      refine .inl ⟨?_, rfl⟩
      rw [steps, ← filterMap_dropBlankEnd, List.reverse_eq_nil_iff.mp none]
      rfl

/-- A relative path without a `.` at its front has a parent if it has a step. -/
theorem parent_spec_of_kept {first : List Char} {rest : List (List Char)} (split : p.pieces = first :: rest)
    (relative : p.isAbsolute = false) (notHere : first ≠ ['.']) (parent : p.parent? = some q) :
    ∃ c, p.steps = q.steps ++ [c] ∧ q.isAbsolute = p.isAbsolute := by
  have steps : p.steps = (first :: rest).filterMap Component.ofPiece? := by rw [← split]; rfl
  unfold parent? at parent
  rw [split] at parent
  simp only [relative, Bool.false_eq_true, if_false, if_neg notHere] at parent
  split at parent
  · rename_i piece before reversed
    obtain ⟨c, -, whole⟩ := exists_concat_of_dropBlankEnd reversed
    have front : dropBlankEnd before.reverse <+: first :: rest := dropBlankEnd_isPrefix reversed
    have free : ∀ piece ∈ dropBlankEnd before.reverse, '/' ∉ piece := fun piece mem =>
      slash_notMem_of_mem_pieces (split ▸ front.subset mem)
    have some : first ≠ [] := by
      rintro rfl
      have more : rest ≠ [] := by
        rintro rfl
        have blank : [[]].filterMap Component.ofPiece? = [] := rfl
        exact List.concat_ne_nil _ _ (whole.symm.trans blank)
      cases relative.symm.trans (isAbsolute_of_pieces split more)
    obtain ⟨kept, start⟩ := steps_kept free front some
    cases parent
    rw [String.empty_append]
    exact ⟨c, by rw [steps, whole, kept], start.trans relative.symm⟩
  · cases parent

/-- **The parent of a path has all its steps but the last one,** and starts where the path does. A path
without steps has the empty path as its parent, if it has one. -/
theorem parent_spec (parent : p.parent? = some q) :
    (p.steps = [] ∧ q.isEmpty = true) ∨
      ∃ c, p.steps = q.steps ++ [c] ∧ q.isAbsolute = p.isAbsolute := by
  cases absolute : p.isAbsolute with
  | true => exact .inr (absolute ▸ parent_spec_of_isAbsolute absolute parent)
  | false =>
    obtain ⟨first, rest, split⟩ := List.exists_cons_of_ne_nil p.pieces_ne_nil
    by_cases here : first = ['.']
    · exact absolute ▸ parent_spec_of_here (here ▸ split) absolute parent
    · exact .inr (absolute ▸ parent_spec_of_kept split absolute here parent)

/-! ## Absolute forms -/

/-- A step is `..` or a file name. -/
theorem eq_up_or_name {c : Component} (mem : c ∈ p.steps) :
    c = .up ∨ ∃ name, c = .name name ∧ IsFileName name := by
  have step := isStep_of_mem_steps mem
  cases c with
  | root => cases step
  | here => cases step
  | up => exact .inl rfl
  | name text => exact .inr ⟨text, rfl, isFileName_of_mem_steps mem⟩

/-- **A path that does not climb is its parent and a name,** if the parent is not empty. -/
theorem exists_name_of_parent? (parent : p.parent? = some q) (written : q.isEmpty = false) (level : .up ∉ p.steps) :
    .up ∉ q.steps ∧ q.isAbsolute = p.isAbsolute ∧
      ∃ name, IsFileName name ∧ p.steps = q.steps ++ [.name name] := by
  rcases parent_spec parent with ⟨-, empty⟩ | ⟨c, steps, start⟩
  · cases written.symm.trans empty
  · have mem : c ∈ p.steps := by simp [steps]
    obtain ⟨name, rfl, isName⟩ := (eq_up_or_name mem).resolve_left fun up => level (up ▸ mem)
    exact ⟨fun up => level (by simp [steps, up]), start, name, isName, steps⟩

/-- **The parent of a path that goes on from another one** goes on through the names but the last. -/
theorem GoesOn.parent? {front : List String} {last : String} (onward : p.GoesOn (front ++ [last]) q) {parent : Path}
    (isParent : q.parent? = some parent) (written : parent.isEmpty = false) : p.GoesOn front parent := by
  rcases parent_spec isParent with ⟨-, empty⟩ | ⟨c, steps, start⟩
  · cases written.symm.trans empty
  · have same := steps.symm.trans onward.steps
    rw [List.map_append, List.map_singleton, ← List.append_assoc] at same
    exact ⟨written, start.trans onward.start, (List.append_inj' same rfl).1, fun name mem =>
      onward.proper name (List.mem_append_left _ mem)⟩

/-- A step of a path is the only one of the path that is written like it. -/
theorem steps_text {c : Component} (mem : c ∈ p.steps) :
    isAbsolute ⟨c.text⟩ = false ∧ steps ⟨c.text⟩ = [c] := by
  rcases eq_up_or_name mem with rfl | ⟨name, rfl, isName⟩
  · decide
  · exact ⟨isName.relative, steps_of_isFileName isName⟩

/-- Steps that are pushed one by one are put behind the others. -/
theorem steps_foldl_push {cs : List Component} (written : p.isEmpty = false)
    (known : ∀ c ∈ cs, isAbsolute ⟨c.text⟩ = false ∧ steps ⟨c.text⟩ = [c]) :
    (cs.foldl (fun made c => made.push c.text) p).steps = p.steps ++ cs ∧
      (cs.foldl (fun made c => made.push c.text) p).isEmpty = false := by
  induction cs generalizing p with
  | nil => simp [written]
  | cons c cs ih =>
    obtain ⟨⟨relative, step⟩, others⟩ := List.forall_mem_cons.mp known
    obtain ⟨steps, some⟩ := ih (p := p.push c.text) (isEmpty_join written relative) others
    refine ⟨?_, some⟩
    rw [List.foldl_cons, steps, push, steps_join written relative, step, List.append_assoc,
      List.singleton_append]

/-- The components of a path without a `.` at its front. -/
theorem filter_components (p : Path) :
    p.components.filter (· != .here) = if p.isAbsolute then .root :: p.steps else p.steps := by
  have steps : p.steps.filter (· != .here) = p.steps := by
    refine List.filter_eq_self.mpr fun c mem => ?_
    rcases eq_up_or_name mem with rfl | ⟨name, rfl, -⟩
    · decide
    · simp
  rw [components_eq, List.filter_append, steps]
  unfold lead
  split
  · rfl
  · split <;> rfl

/-- Steps that are pushed one by one. -/
def pushAll (p : Path) (cs : List Component) : Path := cs.foldl (fun made c => made.push c.text) p

/-- **How the absolute form of a path is made:** its steps are pushed one by one, at the root or in the directory
that a relative path starts in, and a slash at the end stays. -/
theorem absolute?_eq (made : p.absolute? directory = some q) : ∃ front : Path,
    (p.isAbsolute = true ∧ front.steps = [] ∧ front.isEmpty = false ∨ p.isAbsolute = false ∧ front = directory) ∧
      q = if p.endsWithSlash then (front.pushAll p.steps).push "" else front.pushAll p.steps := by
  unfold absolute? at made
  split at made
  · cases made
  · extract_lets steps doubled written at made
    cases made
    suffices told : ∃ front : Path, (p.isAbsolute = true ∧ front.steps = [] ∧ front.isEmpty = false ∨
        p.isAbsolute = false ∧ front = directory) ∧ written = front.pushAll p.steps by
      obtain ⟨front, start, told⟩ := told
      exact ⟨front, start, by rw [told]⟩
    unfold written steps
    rw [filter_components]
    cases absolute : p.isAbsolute with
    | true =>
      simp only [if_true, List.drop_succ_cons, List.drop_zero]
      split
      · exact ⟨⟨"//"⟩, .inl ⟨⟨⟩, by decide, by decide⟩, rfl⟩
      · exact ⟨⟨"/"⟩, .inl ⟨⟨⟩, by decide, by decide⟩, rfl⟩
    | false =>
      have single : doubled = false := by
        unfold doubled
        refine Bool.and_eq_false_imp.mpr fun slashes => ?_
        obtain ⟨rest, text⟩ := String.startsWith_string_iff.mp slashes
        unfold isAbsolute at absolute
        rw [← text] at absolute
        cases absolute
      simp only [single, Bool.false_eq_true, if_false]
      exact ⟨directory, .inr ⟨⟨⟩, rfl⟩, rfl⟩

/-- **The absolute form of a path has its steps,** behind those of the directory that a relative path starts
in. -/
theorem absolute?_spec (start : directory.isEmpty = false) (made : p.absolute? directory = some q) :
    q.steps = (if p.isAbsolute then [] else directory.steps) ++ p.steps ∧ q.isEmpty = false := by
  obtain ⟨front, starts, rfl⟩ := absolute?_eq made
  have some : front.isEmpty = false := by
    rcases starts with ⟨-, -, some⟩ | ⟨-, rfl⟩
    · exact some
    · exact start
  have known : ∀ c ∈ p.steps, isAbsolute ⟨c.text⟩ = false ∧ Path.steps ⟨c.text⟩ = [c] := fun c mem =>
    steps_text mem
  have told : (front.pushAll p.steps).steps = (if p.isAbsolute then [] else directory.steps) ++ p.steps ∧
      (front.pushAll p.steps).isEmpty = false := by
    obtain ⟨steps, written⟩ := steps_foldl_push some known
    refine ⟨steps.trans ?_, written⟩
    rcases starts with ⟨absolute, none, -⟩ | ⟨relative, rfl⟩
    · rw [none, absolute, if_pos rfl]
    · rw [relative, if_neg Bool.false_ne_true]
  split
  · refine ⟨?_, isEmpty_join told.2 (by decide)⟩
    rw [push, steps_join told.2 (by decide), told.1]
    exact List.append_nil _
  · exact told

end PyBundle.Path
