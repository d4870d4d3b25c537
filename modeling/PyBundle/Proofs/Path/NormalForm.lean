import PyBundle.Proofs.Path.Folded

/-!
# Normal forms

What is left on the stack of a path is a run of `..` with names behind it, and the run is empty behind the root
(`exists_kept`). Such steps stay as they are when they are taken onto a stack again, so a path and its normal form have
the same stack (`stack_normalize`).

`normalize_isNormal` says what follows: the normal form of a path is one, it starts where the path starts, it is its own
normal form, it leads where the path leads, and it stands for the path in front of another one.
-/

namespace PyBundle.Path

variable {p q : Path} {cs : List Component} {piece : List Char}

/-! ## What is left on a stack -/

/-- **The steps of a normal form:** some that lead up, which are none behind the root, and then names. -/
def normalSteps (absolute : Bool) (climbs : Nat) (names : List String) : List Component :=
  (if absolute then [] else List.replicate climbs .up) ++ names.map .name

/-- Where only `..` are on the stack, a further one is put onto it. -/
theorem climb_replicate (n : Nat) : Component.climb (List.replicate n .up) .up = List.replicate (n + 1) .up := by
  cases n <;> rfl

/-- **A step leaves steps of a normal form on the stack.** -/
theorem exists_climb (absolute : Bool) (climbs : Nat) (names : List String) {c : Component}
    (step : c = .up ∨ ∃ name, c = .name name) :
    ∃ climbs' names', Component.climb ((normalSteps absolute climbs names).reverse ++ bottom absolute) c =
      (normalSteps absolute climbs' names').reverse ++ bottom absolute := by
  rcases step with rfl | ⟨name, rfl⟩
  · rcases List.eq_nil_or_concat names with rfl | ⟨before, last, rfl⟩
    · -- No name is on top: nothing happens at the root, and elsewhere the run of `..` grows.
      cases absolute with
      | true => exact ⟨climbs, [], rfl⟩
      | false => exact ⟨climbs + 1, [], by simpa [normalSteps, bottom] using climb_replicate climbs⟩
    · exact ⟨climbs, before, by simp [normalSteps, Component.climb]⟩
  · exact ⟨climbs, names ++ [name], by simp [normalSteps, Component.climb]⟩

/-- **What is left of the steps of a path** are steps of a normal form. -/
theorem exists_kept (p : Path) : ∃ climbs names,
    p.stack = (normalSteps p.isAbsolute climbs names).reverse ++ bottom p.isAbsolute ∧
      ∀ c ∈ normalSteps p.isAbsolute climbs names, c ∈ p.steps := by
  have areSteps : ∀ c ∈ p.steps, c = .up ∨ ∃ name, c = .name name := fun c mem =>
    (eq_up_or_name mem).imp_right fun ⟨name, is, _⟩ => ⟨name, is⟩
  have shape : ∀ cs : List Component, (∀ c ∈ cs, c = .up ∨ ∃ name, c = .name name) → ∃ climbs names,
      cs.foldl Component.climb (bottom p.isAbsolute) =
        (normalSteps p.isAbsolute climbs names).reverse ++ bottom p.isAbsolute := by
    intro cs steps
    induction cs using List.reverseRecOn with
    | nil => exact ⟨0, [], by simp [normalSteps]⟩
    | append_singleton cs c ih =>
      obtain ⟨before, last⟩ := List.forall_mem_append.mp steps
      obtain ⟨climbs, names, left⟩ := ih before
      rw [List.foldl_append, left]
      exact exists_climb _ climbs names (last c (List.mem_singleton_self c))
  obtain ⟨climbs, names, left⟩ := shape p.steps areSteps
  obtain ⟨kept, same, sub⟩ := exists_stack p.isAbsolute areSteps
  refine ⟨climbs, names, ?_, fun c mem => sub.subset ?_⟩
  · rw [stack, components_eq, List.foldl_append, foldl_lead, left]
  · rw [left, List.append_cancel_right_eq, List.reverse_inj] at same
    exact same ▸ mem

/-- **Steps of a normal form stay as they are** when they are taken onto a stack. -/
theorem foldl_normalSteps (absolute : Bool) (climbs : Nat) (names : List String) :
    (normalSteps absolute climbs names).foldl Component.climb (bottom absolute) =
      (normalSteps absolute climbs names).reverse ++ bottom absolute := by
  have ups : (List.replicate climbs Component.up).foldl Component.climb [] = List.replicate climbs .up := by
    induction climbs with
    | zero => rfl
    | succ n ih => rw [List.replicate_succ', List.foldl_append, ih, ← List.replicate_succ']; exact climb_replicate n
  have onto : ∀ stack : List Component,
      (names.map Component.name).foldl Component.climb stack = (names.map Component.name).reverse ++ stack := by
    induction names with
    | nil => exact fun _ => rfl
    | cons name names ih =>
      intro stack
      rw [List.map_cons, List.foldl_cons, ih, List.reverse_cons, List.append_assoc]
      rfl
  unfold normalSteps
  rw [List.foldl_append, onto]
  cases absolute <;> simp [bottom, ups]

/-! ## The normal form and its stack -/

theorem normalize_eq_ofStack (p : Path) : p.normalize = ofStack p.stack := rfl

/-- **A path and its normal form have the same stack.** -/
theorem stack_normalize (p : Path) : p.normalize.stack = p.stack := by
  obtain ⟨climbs, names, left, inside⟩ := p.exists_kept
  obtain ⟨steps, -, absolute, -⟩ := ofStack_spec inside p.isAbsolute
  rw [← left, ← normalize_eq_ofStack] at steps absolute
  rw [stack, components_eq, List.foldl_append, foldl_lead, steps, absolute, foldl_normalSteps, left]

/-- **The normal form of a joined path** is the one of the path that is joined to the normal form. -/
theorem normalize_join (p q : Path) : (p.join q).normalize = (p.normalize.join q).normalize := by
  cases absolute : q.isAbsolute with
  | true => rw [join_of_isAbsolute absolute, join_of_isAbsolute absolute]
  | false =>
    rw [normalize_eq_ofStack, normalize_eq_ofStack, stack_join p absolute, stack_join _ absolute, stack_normalize]

/-! ## How a normal form is written -/

/-- A step is written as the only thing between slashes, and it is no `.`. -/
theorem here_notMem_pieces_text {c : Component} (mem : c ∈ q.steps) : ['.'] ∉ pieces ⟨c.text⟩ := by
  rcases eq_up_or_name mem with rfl | ⟨name, rfl, isName⟩
  · decide
  · have single : pieces ⟨name⟩ = [name.toList] := by
      have ofChars := pieces_ofList isName.slashFree
      rwa [String.ofList_toList] at ofChars
    show ['.'] ∉ pieces ⟨name⟩
    rw [single, List.mem_singleton]
    exact fun dot => isName.notHere (String.toList_inj.mp dot.symm)

/-- No `.` comes between slashes when steps are pushed. -/
theorem here_notMem_pieces_pushAll (written : p.isEmpty = false) (inside : ∀ c ∈ cs, c ∈ q.steps)
    (free : ['.'] ∉ p.pieces) : ['.'] ∉ (p.pushAll cs).pieces := by
  induction cs generalizing p with
  | nil => exact free
  | cons c cs ih =>
    obtain ⟨mem, others⟩ := List.forall_mem_cons.mp inside
    have relative := (steps_text mem).1
    refine ih (p := p.push c.text) (isEmpty_join written relative) others fun dot => ?_
    obtain ⟨front, before, joined⟩ := pieces_join written relative
    rw [push, joined] at dot
    rcases List.mem_append.mp dot with first | last
    · refine free ?_
      rcases before with same | same
      · exact same ▸ first
      · exact same ▸ List.mem_append_left _ first
    · exact here_notMem_pieces_text mem last

/-- **A normal form:** the current directory, or names from the root or behind a run of `..`. No `.` stands between
slashes. -/
def IsNormal (p : Path) : Prop :=
  p = ⟨"."⟩ ∨ ['.'] ∉ p.pieces ∧ ∃ (climbs : Nat) (names : List String),
    p.components = (if p.isAbsolute then [.root] else List.replicate climbs .up) ++ names.map .name

/-- Where no `.` stands between slashes, a relative path starts with its steps. -/
theorem lead_eq_nil_of_notMem (relative : p.isAbsolute = false) (free : ['.'] ∉ p.pieces) : p.lead = [] := by
  unfold lead
  rw [relative, if_neg Bool.false_ne_true, if_neg fun dot => free (List.mem_of_head? dot)]

/-- **The normal form of a path is one.** -/
theorem isNormal_normalize (p : Path) : p.normalize.IsNormal := by
  obtain ⟨climbs, names, left, inside⟩ := p.exists_kept
  obtain ⟨steps, -, absolute, -⟩ := ofStack_spec inside p.isAbsolute
  have made := p.normalize_eq_ofStack
  rw [left] at made
  rw [← made] at steps absolute
  have free : p.normalize = ⟨"."⟩ ∨ ['.'] ∉ p.normalize.pieces := by
    rw [ofStack_eq] at made
    generalize normalSteps p.isAbsolute climbs names = kept at made inside
    split at made
    · exact .inr (made ▸ by decide)
    · exact .inl made
    · exact .inr (made ▸ here_notMem_pieces_pushAll (p := ⟨"/"⟩) (by decide) inside (by decide))
    · rename_i c cs _
      obtain ⟨mem, others⟩ := List.forall_mem_cons.mp inside
      have written : isEmpty ⟨c.text⟩ = false := by
        rcases eq_up_or_name mem with rfl | ⟨name, rfl, isName⟩
        · decide
        · exact beq_false_of_ne isName.notEmpty
      exact .inr (made ▸ here_notMem_pieces_pushAll written others (here_notMem_pieces_text mem))
  refine free.imp_right fun free => ⟨free, climbs, names, ?_⟩
  rw [components_eq, steps, absolute]
  unfold normalSteps
  cases start : p.isAbsolute with
  | true => rw [isAbsolute_iff_lead.mp (absolute.trans start)]; rfl
  | false => rw [lead_eq_nil_of_notMem (absolute.trans start) free]; rfl

/-! ## Where a path leads -/

/-- **A component as a move** in a tree of directories without links, in which nothing is above the root. -/
def Component.move (start : Place) : Component → Place
  | root => []
  | here => start
  | up => start.dropLast
  | name text => start ++ [text]

/-- **Where a path leads from a directory** of such a tree. -/
def goal (p : Path) (start : Place) : Place := p.components.foldl Component.move start

/-- **A step onto a stack leads on from where the stack leads.** -/
theorem foldl_move_climb (stack : List Component) (start : Place) (c : Component) :
    (Component.climb stack c).reverse.foldl Component.move start =
      Component.move (stack.reverse.foldl Component.move start) c := by
  cases c with
  | root => simp [Component.climb]
  | here => rfl
  | name text => simp [Component.climb]
  | up =>
    rcases stack with _ | ⟨_ | _ | _ | text, below⟩ <;> simp [Component.climb, Component.move]

/-- **The stack of a path leads where the path leads.** -/
theorem foldl_move_stack (p : Path) (start : Place) : p.stack.reverse.foldl Component.move start = p.goal start := by
  unfold stack goal
  induction p.components using List.reverseRecOn with
  | nil => rfl
  | append_singleton cs c ih =>
    rw [List.foldl_append, List.foldl_append, List.foldl_cons, List.foldl_nil, foldl_move_climb, ih]
    rfl

/-- **Normalizing a path keeps what it means.** The result is a normal form, and it is absolute if the path is.
Normalizing it again changes nothing. It leads where the path leads, from each directory of a tree without links. And a
path that is joined to it is normalized as if it were joined to the path. -/
theorem normalize_isNormal (p : Path) :
    p.normalize.IsNormal ∧ p.normalize.isAbsolute = p.isAbsolute ∧ p.normalize.normalize = p.normalize ∧
      (∀ start, p.normalize.goal start = p.goal start) ∧
      ∀ q, (p.join q).normalize = (p.normalize.join q).normalize := by
  refine ⟨p.isNormal_normalize, ?_, ?_, fun start => ?_, p.normalize_join⟩
  · obtain ⟨climbs, names, left, inside⟩ := p.exists_kept
    obtain ⟨-, -, absolute, -⟩ := ofStack_spec inside p.isAbsolute
    rwa [← left] at absolute
  · rw [normalize_eq_ofStack, stack_normalize, ← normalize_eq_ofStack]
  · rw [← foldl_move_stack, ← foldl_move_stack, stack_normalize]

end PyBundle.Path
