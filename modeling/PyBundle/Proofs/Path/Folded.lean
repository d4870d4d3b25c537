import Mathlib.Algebra.Ring.Nat
import Mathlib.Data.List.Induction
import PyBundle.Path.Normal
import PyBundle.Proofs.FileSystem.Absolute
import PyBundle.Proofs.Path.Parent

/-!
# Paths whose steps are folded

The normal form of a path is made of what is left on a stack, and each step puts a component onto the stack or takes a
name back (`climb_cases`). A stack holds some of the steps of a path in order, so the path that it says starts where
the path does, has these steps (`ofStack_spec`), and can lead somewhere if the path can (`isUsable_ofStack`).
-/

namespace PyBundle.Path

variable {p q : Path} {kept cs : List Component} {c : Component} {absolute : Bool}

/-- **The path that a stack says,** the current directory if nothing is on it. -/
def ofStack (stack : List Component) : Path :=
  match stack.reverse with
  | [] => ⟨"."⟩
  | cs => ofComponents cs

/-- What is at the bottom of a stack. -/
def bottom (absolute : Bool) : List Component := if absolute then [.root] else []

/-- The stack of a path is at its bottom before the steps. -/
theorem foldl_lead (p : Path) : p.lead.foldl Component.climb [] = bottom p.isAbsolute := by
  unfold lead bottom
  split
  · rfl
  · split <;> rfl

/-- **The normal form of a path** is what the stack of its components says. -/
theorem normalize_eq (p : Path) :
    p.normalize = ofStack (p.steps.foldl Component.climb (bottom p.isAbsolute)) := by
  rw [← foldl_lead, ← List.foldl_append, ← components_eq]
  rfl

/-! ## Steps onto the stack -/

/-- **What a step does to the stack.** A name is put onto it. A `..` takes a name back, says nothing at the root, and
is put onto it otherwise. -/
theorem climb_cases (kept : List Component) (absolute : Bool) (steps : ∀ c ∈ kept, c.isStep = true)
    (step : c = .up ∨ ∃ name, c = .name name) :
    (Component.climb (kept.reverse ++ bottom absolute) c = (kept ++ [c]).reverse ++ bottom absolute) ∨
    (c = .up ∧ absolute = true ∧ kept = [] ∧
      Component.climb (kept.reverse ++ bottom absolute) c = kept.reverse ++ bottom absolute) ∨
    ∃ below name, c = .up ∧ kept = below ++ [.name name] ∧
      Component.climb (kept.reverse ++ bottom absolute) c = below.reverse ++ bottom absolute := by
  rcases step with rfl | ⟨name, rfl⟩
  · rcases List.eq_nil_or_concat kept with rfl | ⟨below, last, rfl⟩
    · cases absolute with
      | true => exact .inr (.inl ⟨rfl, rfl, rfl, rfl⟩)
      | false => exact .inl rfl
    · rw [List.concat_eq_append] at steps ⊢
      cases last with
      | name text => exact .inr (.inr ⟨below, text, rfl, rfl, by simp [Component.climb]⟩)
      | up => exact .inl (by simp [Component.climb])
      | here => cases steps .here (by simp)
      | root => cases steps .root (by simp)
  · exact .inl (by simp [Component.climb])

/-- **A stack holds steps that were taken,** in order. -/
theorem exists_stack (absolute : Bool) (steps : ∀ c ∈ cs, c = .up ∨ ∃ name, c = .name name) :
    ∃ kept : List Component,
      cs.foldl Component.climb (bottom absolute) = kept.reverse ++ bottom absolute ∧ kept.Sublist cs := by
  induction cs using List.reverseRecOn with
  | nil => exact ⟨[], rfl, List.Sublist.refl []⟩
  | append_singleton cs c ih =>
    obtain ⟨before, last⟩ := List.forall_mem_append.mp steps
    obtain ⟨kept, stack, sub⟩ := ih before
    have areSteps : ∀ c ∈ kept, c.isStep = true := fun c mem => by
      rcases before c (sub.subset mem) with rfl | ⟨name, rfl⟩ <;> rfl
    rw [List.foldl_append, stack, List.foldl_cons, List.foldl_nil]
    rcases climb_cases kept absolute areSteps (last c (List.mem_singleton_self c)) with
      put | ⟨-, -, -, same⟩ | ⟨below, name, -, rfl, popped⟩
    · exact ⟨kept ++ [c], put, sub.append (List.Sublist.refl [c])⟩
    · exact ⟨kept, same, sub.trans (List.sublist_append_left _ _)⟩
    · exact ⟨below, popped, ((List.sublist_append_left _ _).trans sub).trans (List.sublist_append_left _ _)⟩

/-- **Where a `..` takes a name back,** the name and the `..` are steps of the path behind those that are left. -/
theorem exists_below {front rest stack : List Component} {name : String} (components : p.components = front ++ .up :: rest)
    (folded : front.foldl Component.climb [] = .name name :: stack) :
    ∃ below, stack = below.reverse ++ bottom p.isAbsolute ∧
      (below ++ [Component.name name] ++ [Component.up]).Sublist p.steps := by
  obtain ⟨before, rfl, steps⟩ : ∃ before, front = p.lead ++ before ∧ p.steps = before ++ .up :: rest := by
    rw [components_eq] at components
    rcases List.append_eq_append_iff.mp components with ⟨before, rfl, steps⟩ | ⟨behind, lead, rest'⟩
    · exact ⟨before, rfl, steps⟩
    · cases behind with
      | nil => exact ⟨[], by simpa using lead.symm, by simpa using rest'.symm⟩
      | cons first behind =>
        cases (List.cons.inj rest').1
        cases not_isStep_of_mem_lead (p := p) (c := .up) (by simp [lead])
  have isSteps : ∀ c ∈ before, c = .up ∨ ∃ name, c = .name name := fun c mem =>
    (eq_up_or_name (p := p) (by simp [steps, mem])).imp_right fun ⟨name, is, _⟩ => ⟨name, is⟩
  obtain ⟨kept, stacked, sub⟩ := exists_stack p.isAbsolute isSteps
  rw [List.foldl_append, foldl_lead, stacked] at folded
  rcases List.eq_nil_or_concat kept with rfl | ⟨below, last, rfl⟩
  · unfold bottom at folded
    split at folded <;> cases folded
  · rw [List.concat_eq_append] at folded sub
    rw [List.reverse_append, List.reverse_singleton, List.singleton_append, List.cons_append] at folded
    obtain ⟨rfl, rfl⟩ := List.cons.inj folded
    refine ⟨below, rfl, ?_⟩
    rw [steps]
    exact sub.append (List.Sublist.cons_cons _ (List.nil_sublist _))

/-! ## How long a stack is -/

/-- The length of components with a slash each. -/
def weight (cs : List Component) : Nat := (cs.map fun c => c.text.utf8ByteSize + 1).sum

theorem weight_cons (c : Component) (cs : List Component) : weight (c :: cs) = c.text.utf8ByteSize + 1 + weight cs := by
  simp [weight]

theorem weight_le_of_sublist (sub : kept.Sublist cs) : weight kept ≤ weight cs := by
  induction sub with
  | slnil => exact Nat.le_refl _
  | cons c _ ih =>
    rw [weight_cons]
    omega
  | cons_cons c _ ih =>
    rw [weight_cons, weight_cons]
    omega

/-- Joined pieces have a slash each but the first one. -/
theorem utf8ByteSize_joinPieces {pieces : List (List Char)} (some : pieces ≠ []) :
    (joinPieces pieces).utf8ByteSize + 1 = (pieces.map fun piece => (String.ofList piece).utf8ByteSize + 1).sum := by
  unfold joinPieces
  induction pieces with
  | nil => exact absurd rfl some
  | cons piece pieces ih =>
    cases pieces with
    | nil => simp
    | cons next pieces =>
      have rest := ih (List.cons_ne_nil _ _)
      have slash : "/".utf8ByteSize = 1 := by decide
      rw [List.map_cons (f := fun piece => (String.ofList piece).utf8ByteSize + 1), List.sum_cons, ← rest,
        List.map_cons, List.map_cons, String.intercalate_cons_cons, String.utf8ByteSize_append,
        String.utf8ByteSize_append, slash]
      omega

/-- **The steps of a path are not longer than the path,** apart from a slash before the first one. -/
theorem weight_steps_le (q : Path) : weight q.steps ≤ q.text.utf8ByteSize + if q.isAbsolute then 0 else 1 := by
  have sum : ∀ pieces : List (List Char), weight (pieces.filterMap Component.ofPiece?) ≤
      (pieces.map fun piece => (String.ofList piece).utf8ByteSize + 1).sum := by
    intro pieces
    induction pieces with
    | nil => exact Nat.le_refl _
    | cons piece pieces ih =>
      rw [List.map_cons, List.sum_cons]
      cases is : Component.ofPiece? piece with
      | none =>
        rw [List.filterMap_cons_none is]
        omega
      | some c =>
        rw [List.filterMap_cons_some is, weight_cons, Component.text_of_ofPiece? is]
        omega
  have text : q.text = joinPieces q.pieces := by
    unfold joinPieces
    rw [← String.toList_inj, String.toList_intercalate, List.map_map, Text.toList_comp_ofList, List.map_id]
    exact q.intercalate_pieces.symm
  have size := utf8ByteSize_joinPieces q.pieces_ne_nil
  rw [← text] at size
  cases absolute : q.isAbsolute with
  | false =>
    have whole := sum q.pieces
    rw [if_neg Bool.false_ne_true]
    exact Nat.le_trans whole (Nat.le_of_eq size.symm)
  | true =>
    obtain ⟨rest, split⟩ := exists_pieces_of_isAbsolute absolute
    have whole := sum rest
    rw [split, List.map_cons, List.sum_cons, String.ofList_nil, String.utf8ByteSize_empty] at size
    rw [if_pos rfl, steps, split, List.filterMap_cons_none rfl]
    omega

/-! ## What a stack says -/

theorem mem_text_of_mem_steps {x : Char} (mem : c ∈ q.steps) (inside : x ∈ c.text.toList) : x ∈ q.text.toList := by
  obtain ⟨piece, isPiece, is⟩ := List.mem_filterMap.mp mem
  rw [Component.text_of_ofPiece? is, String.toList_ofList] at inside
  exact Text.mem_of_mem_splitOn isPiece inside

/-- **What is said when steps of a path are pushed onto another one.** -/
theorem pushAll_spec (written : p.isEmpty = false) (inside : ∀ c ∈ cs, c ∈ q.steps) :
    (p.pushAll cs).steps = p.steps ++ cs ∧ (p.pushAll cs).isEmpty = false ∧
      (p.pushAll cs).isAbsolute = p.isAbsolute ∧
      (p.pushAll cs).text.utf8ByteSize ≤ p.text.utf8ByteSize + weight cs ∧
      ∀ x ∈ (p.pushAll cs).text.toList, x ∈ p.text.toList ∨ x = '/' ∨ x ∈ q.text.toList := by
  induction cs generalizing p with
  | nil => exact ⟨(List.append_nil _).symm, written, rfl, Nat.le_refl _, fun _ => .inl⟩
  | cons c cs ih =>
    obtain ⟨mem, others⟩ := List.forall_mem_cons.mp inside
    obtain ⟨relative, step⟩ := steps_text mem
    have joined := isEmpty_join written relative
    obtain ⟨steps, some, start, size, chars⟩ := ih (p := p.push c.text) joined others
    have once := utf8ByteSize_join_le p ⟨c.text⟩
    refine ⟨?_, some, start.trans (isAbsolute_join_of_written written relative), ?_, fun x mem => ?_⟩
    · rw [pushAll, List.foldl_cons]
      refine steps.trans ?_
      rw [push, steps_join written relative, step, List.append_assoc, List.singleton_append]
    · rw [weight_cons]
      refine Nat.le_trans size ?_
      dsimp only [push] at once ⊢
      omega
    · rcases chars x mem with before | slash
      · rcases mem_text_join before with first | rfl | last
        · exact .inl first
        · exact .inr (.inl rfl)
        · exact .inr (.inr (mem_text_of_mem_steps (List.forall_mem_cons.mp inside).1 last))
      · exact .inr slash

/-- How the path of a stack is made. -/
theorem ofStack_eq (kept : List Component) (absolute : Bool) :
    ofStack (kept.reverse ++ bottom absolute) =
      match absolute, kept with
      | true, [] => ⟨"/"⟩
      | false, [] => ⟨"."⟩
      | true, c :: cs => pushAll (push ⟨"/"⟩ c.text) cs
      | false, c :: cs => pushAll ⟨c.text⟩ cs := by
  have first (s : String) : push ⟨""⟩ s = ⟨s⟩ := by simp [push, join, isEmpty]
  unfold ofStack bottom
  cases absolute with
  | true =>
    rw [if_pos rfl, List.reverse_append, List.reverse_reverse, List.reverse_singleton, List.singleton_append]
    cases kept with
    | nil => exact first "/"
    | cons c cs =>
      show ofComponents (.root :: c :: cs) = _
      rw [ofComponents, List.foldl_cons, List.foldl_cons, first]
      rfl
  | false =>
    rw [if_neg Bool.false_ne_true, List.append_nil, List.reverse_reverse]
    cases kept with
    | nil => rfl
    | cons c cs =>
      show ofComponents (c :: cs) = _
      rw [ofComponents, List.foldl_cons, first]
      rfl

/-- **What a stack of steps of a path says:** the steps that are on it, from the root or not, and no more than the path
says. -/
theorem ofStack_spec (inside : ∀ c ∈ kept, c ∈ q.steps) (absolute : Bool) :
    (ofStack (kept.reverse ++ bottom absolute)).steps = kept ∧
      (ofStack (kept.reverse ++ bottom absolute)).isEmpty = false ∧
      (ofStack (kept.reverse ++ bottom absolute)).isAbsolute = absolute ∧
      (ofStack (kept.reverse ++ bottom absolute)).text.utf8ByteSize + (if absolute then 0 else 1) ≤
        max 2 (weight kept) ∧
      ∀ x ∈ (ofStack (kept.reverse ++ bottom absolute)).text.toList, x = '.' ∨ x = '/' ∨ x ∈ q.text.toList := by
  rw [ofStack_eq]
  cases kept with
  | nil =>
    cases absolute with
    | true => exact ⟨by decide, by decide, by decide, by decide, fun x mem => .inr (.inl (List.mem_singleton.mp mem))⟩
    | false => exact ⟨by decide, by decide, by decide, by decide, fun x mem => .inl (List.mem_singleton.mp mem)⟩
  | cons c cs =>
    obtain ⟨mem, others⟩ := List.forall_mem_cons.mp inside
    obtain ⟨relative, step⟩ := steps_text mem
    have told {x : Char} : x ∈ c.text.toList → x ∈ q.text.toList := mem_text_of_mem_steps mem
    rw [weight_cons]
    cases absolute with
    | true =>
      have joined : push ⟨"/"⟩ c.text = ⟨"/" ++ c.text⟩ := by
        unfold push join
        rw [relative]
        rfl
      have slash : "/".utf8ByteSize = 1 := by decide
      have written : (push ⟨"/"⟩ c.text).isEmpty = false := isEmpty_join (by decide) relative
      obtain ⟨steps, some, start, size, chars⟩ := pushAll_spec written others
      have start' : (push ⟨"/"⟩ c.text).isAbsolute = true := isAbsolute_join (by decide)
      refine ⟨?_, some, start.trans start', ?_, fun x mem => ?_⟩
      · rw [steps, push, steps_join (by decide) relative, step]
        rfl
      · dsimp only
        rw [joined, String.utf8ByteSize_append, slash] at size
        rw [joined, if_pos rfl]
        omega
      · rw [joined, String.toList_append] at chars
        rcases chars x (joined ▸ mem) with before | rest
        · rcases List.mem_append.mp before with slash | name
          · exact .inr (.inl (List.mem_singleton.mp slash))
          · exact .inr (.inr (told name))
        · exact .inr rest
    | false =>
      have written : isEmpty ⟨c.text⟩ = false := by
        rcases eq_up_or_name mem with rfl | ⟨name, rfl, isName⟩
        · decide
        · exact beq_false_of_ne isName.notEmpty
      obtain ⟨steps, some, start, size, chars⟩ := pushAll_spec written others
      refine ⟨?_, some, start.trans relative, ?_, fun x mem => ?_⟩
      · rw [steps, step]
        rfl
      · dsimp only at size ⊢
        rw [if_neg Bool.false_ne_true]
        omega
      · rcases chars x mem with before | rest
        · exact .inr (.inr (told before))
        · exact .inr rest

/-- **What a stack of steps of a path says can lead somewhere** if the path can, as long as the stack does not bring a
slash to the front. -/
theorem isUsable_ofStack (usable : q.IsUsable) (sub : kept.Sublist q.steps)
    (start : q.isAbsolute = true ∨ absolute = false) : (ofStack (kept.reverse ++ bottom absolute)).IsUsable := by
  obtain ⟨-, written, -, size, chars⟩ := ofStack_spec (fun c mem => sub.subset mem) absolute
  refine ⟨fun nul => ?_, written, fun long => usable.short ?_⟩
  · rcases chars _ nul with dot | slash | inside
    · cases dot
    · cases slash
    · exact usable.noNul inside
  · have less := weight_le_of_sublist sub
    have whole := weight_steps_le q
    have limit : FileSystem.pathLimit = 4096 := rfl
    unfold IsTooLong at long ⊢
    rw [limit] at long ⊢
    rcases start with absolute | rfl
    · rw [absolute, if_pos rfl] at whole
      omega
    · rw [if_neg Bool.false_ne_true] at size
      split at whole <;> omega

/-! ## Folding what stands behind a path -/

/-- What is on the stack after the components of a path. -/
def stack (p : Path) : List Component := p.components.foldl Component.climb []

theorem normalComponents_eq (p : Path) : p.normalComponents = p.stack.reverse := rfl

/-- **A relative path behind another one goes on with its stack.** -/
theorem stack_join (p : Path) (relative : q.isAbsolute = false) :
    (p.join q).stack = q.steps.foldl Component.climb p.stack := by
  have fold (r : Path) : r.stack = r.steps.foldl Component.climb (r.lead.foldl Component.climb []) := by
    rw [stack, components_eq, List.foldl_append]
  cases written : p.isEmpty with
  | true =>
    have nothing : p = ⟨""⟩ := congrArg Path.mk (eq_of_beq written)
    rw [join_of_isEmpty written, fold q, foldl_lead, relative, nothing]
    rfl
  | false =>
    rw [fold (p.join q), lead_join_of_written written relative, steps_join written relative, List.foldl_append, ← fold p]

/-- **Steps that do not lead above where they start** leave what is on the stack below them. -/
theorem foldl_climb_append {stack : List Component} (inside : .up ∉ cs.foldl Component.climb []) :
    cs.foldl Component.climb stack = cs.foldl Component.climb [] ++ stack := by
  induction cs using List.reverseRecOn with
  | nil => rfl
  | append_singleton cs c ih =>
    simp only [List.foldl_append, List.foldl_cons, List.foldl_nil] at inside ⊢
    generalize cs.foldl Component.climb [] = above at inside ih ⊢
    -- A `..` that is not left itself takes back a name from above, or stays where it is at a root.
    cases c with
    | here => exact ih inside
    | root => rw [ih fun mem => inside (List.mem_cons_of_mem _ mem)]; rfl
    | name text => rw [ih fun mem => inside (List.mem_cons_of_mem _ mem)]; rfl
    | up =>
      rcases above with _ | ⟨_ | _ | _ | text, above⟩
      · exact absurd List.mem_cons_self inside
      · rw [ih inside]; rfl
      · exact absurd List.mem_cons_self inside
      · exact absurd List.mem_cons_self inside
      · rw [ih fun mem => (List.mem_cons.mp mem).elim nofun inside]
        rfl

/-- Steps up leave nothing new on the stack. -/
theorem mem_of_mem_climb_ups {stack : List Component} (k : Nat)
    (mem : c ∈ (List.replicate k .up).foldl Component.climb stack) : c = .up ∨ c ∈ stack := by
  induction k generalizing stack with
  | zero => exact .inr mem
  | succ k ih =>
    rw [List.replicate_succ, List.foldl_cons] at mem
    refine (ih mem).elim .inl fun mem => ?_
    rcases stack with _ | ⟨_ | _ | _ | text, stack⟩
    · exact .inl (List.mem_singleton.mp mem)
    · exact .inr mem
    · exact List.mem_cons.mp mem
    · exact List.mem_cons.mp mem
    · exact .inr (List.mem_cons_of_mem _ mem)

end PyBundle.Path
