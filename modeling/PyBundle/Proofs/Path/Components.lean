import PyBundle.Path.Basic
import PyBundle.Proofs.Text.Split

/-!
# What a path says

The components of a path are its lead, which says where it starts, and its steps. Paths with the same
components have the same lead and the same steps, and a relative path adds its steps to those of the path
that it is joined to.
-/

namespace PyBundle.Path

/-- Whether a component leads on from where a path starts. -/
def Component.isStep : Component → Bool
  | root => false
  | here => false
  | up => true
  | name _ => true

/-- What stands between slashes leads on, if it is a component. -/
theorem Component.isStep_of_ofPiece? {piece : List Char} {c : Component} (is : ofPiece? piece = some c) :
    c.isStep = true := by
  unfold ofPiece? at is
  split at is
  · cases is
  · cases is
  · cases is
    rfl
  · cases is
    rfl

/-- A component is written as the piece that it is. -/
theorem Component.text_of_ofPiece? {piece : List Char} {c : Component} (is : ofPiece? piece = some c) :
    c.text = String.ofList piece := by
  unfold ofPiece? at is
  split at is
  · cases is
  · cases is
  · cases is
    decide
  · cases is
    rfl

variable {p q r : Path}

/-- **A path ends in a name,** with nothing behind it. -/
def EndsInName (p : Path) : Prop :=
  ∃ piece name, p.pieces.getLast? = some piece ∧ Component.ofPiece? piece = some (.name name)

/-- **Where a path starts:** at the root, explicitly here, or nothing is said. -/
def lead (p : Path) : List Component :=
  if p.isAbsolute then [.root] else if p.pieces.head? = some ['.'] then [.here] else []

/-- **The steps of a path.** -/
def steps (p : Path) : List Component := p.pieces.filterMap Component.ofPiece?

theorem isStep_of_mem_steps {c : Component} (mem : c ∈ p.steps) : c.isStep = true := by
  obtain ⟨piece, -, is⟩ := List.mem_filterMap.mp mem
  exact Component.isStep_of_ofPiece? is

theorem not_isStep_of_mem_lead {c : Component} (mem : c ∈ p.lead) : c.isStep = false := by
  unfold lead at mem
  split at mem
  · cases List.mem_singleton.mp mem
    rfl
  · split at mem
    · cases List.mem_singleton.mp mem
      rfl
    · cases mem

theorem pieces_ne_nil (p : Path) : p.pieces ≠ [] := List.splitOn_ne_nil '/' p.text.toList

/-- A piece has no slash. -/
theorem slash_notMem_of_mem_pieces {piece : List Char} (mem : piece ∈ p.pieces) : '/' ∉ piece :=
  Text.separator_notMem_of_mem_splitOn mem

/-- A path is written as its pieces with a slash between any two. -/
theorem intercalate_pieces (p : Path) : ['/'].intercalate p.pieces = p.text.toList :=
  List.intercalate_splitOn '/'

/-- An absolute path has nothing before its first slash. -/
theorem exists_pieces_of_isAbsolute (absolute : p.isAbsolute = true) : ∃ rest, p.pieces = [] :: rest := by
  unfold isAbsolute at absolute
  obtain ⟨rest, text⟩ := List.head?_eq_some_iff.mp (eq_of_beq absolute)
  unfold pieces
  rw [text, List.splitOn_cons_eq_if_modifyHead, if_pos (beq_self_eq_true '/')]
  exact ⟨_, rfl⟩

/-- **The components of a path are its lead and its steps.** -/
theorem components_eq (p : Path) : p.components = p.lead ++ p.steps := by
  unfold components lead steps
  cases pieces : p.pieces with
  | nil => exact absurd pieces p.pieces_ne_nil
  | cons first rest =>
    dsimp only [List.head?_cons]
    cases absolute : p.isAbsolute with
    | true =>
      obtain ⟨rest', same⟩ := exists_pieces_of_isAbsolute absolute
      cases pieces.symm.trans same
      rfl
    | false =>
      simp only [Bool.false_eq_true, if_false, Option.some.injEq]
      by_cases here : first = ['.']
      · subst here
        rfl
      · rw [if_neg here, if_neg here, List.nil_append]
        cases is : Component.ofPiece? first with
        | none => rw [List.filterMap_cons_none is]; rfl
        | some c => rw [List.filterMap_cons_some is]; rfl

/-- **Paths say the same if and only if their leads and their steps are the same.** -/
theorem sameAs_iff : p.sameAs q = true ↔ p.lead = q.lead ∧ p.steps = q.steps := by
  have leadOf : ∀ r : Path, r.components.filter (fun c => !c.isStep) = r.lead := fun r => by
    rw [components_eq, List.filter_append, List.filter_eq_self.mpr, List.filter_eq_nil_iff.mpr,
      List.append_nil]
    · intro c mem
      rw [isStep_of_mem_steps mem]
      decide
    · intro c mem
      rw [not_isStep_of_mem_lead mem]
      decide
  have stepsOf : ∀ r : Path, r.components.filter Component.isStep = r.steps := fun r => by
    rw [components_eq, List.filter_append, List.filter_eq_nil_iff.mpr, List.filter_eq_self.mpr,
      List.nil_append]
    · exact fun c mem => isStep_of_mem_steps mem
    · intro c mem
      rw [not_isStep_of_mem_lead mem]
      decide
  unfold sameAs
  rw [beq_iff_eq]
  constructor
  · intro same
    rw [← leadOf p, ← leadOf q, ← stepsOf p, ← stepsOf q, same]
    exact ⟨rfl, rfl⟩
  · rintro ⟨leads, steps⟩
    rw [components_eq, components_eq, leads, steps]

theorem sameAs_refl (p : Path) : p.sameAs p = true := beq_self_eq_true p.components

theorem sameAs_comm (p q : Path) : p.sameAs q = q.sameAs p := Bool.beq_comm

theorem sameAs_trans (first : p.sameAs q = true) (second : q.sameAs r = true) : p.sameAs r = true := by
  obtain ⟨leads, steps⟩ := sameAs_iff.mp first
  obtain ⟨leads', steps'⟩ := sameAs_iff.mp second
  exact sameAs_iff.mpr ⟨leads.trans leads', steps.trans steps'⟩

theorem isAbsolute_iff_lead : p.isAbsolute = true ↔ p.lead = [.root] := by
  unfold lead
  split
  · rename_i absolute
    exact ⟨fun _ => rfl, fun _ => absolute⟩
  · rename_i relative
    refine ⟨fun absolute => absurd absolute relative, fun same => ?_⟩
    split at same <;> cases same

/-- Paths that say the same start both at the root or both elsewhere. -/
theorem isAbsolute_eq_of_sameAs (same : p.sameAs q = true) : p.isAbsolute = q.isAbsolute := by
  rw [Bool.eq_iff_iff, isAbsolute_iff_lead, isAbsolute_iff_lead, (sameAs_iff.mp same).1]

/-! ## Joined paths -/

/-- An absolute path replaces what it is joined to. -/
theorem join_of_isAbsolute (absolute : q.isAbsolute = true) : p.join q = q := by
  unfold join
  rw [absolute, Bool.true_or, if_pos rfl]

theorem isEmpty_of_isAbsolute (absolute : p.isAbsolute = true) : p.isEmpty = false := by
  unfold isEmpty
  refine beq_false_of_ne fun empty => ?_
  unfold isAbsolute at absolute
  rw [empty] at absolute
  exact absurd absolute (by decide)

/-- **A relative path is written behind the one that it is joined to,** and behind a slash where one is missing. -/
theorem exists_text_join (p : Path) (relative : q.isAbsolute = false) :
    ∃ between, (between = "" ∨ between = "/") ∧ (p.join q).text = p.text ++ between ++ q.text := by
  unfold join
  rw [relative, Bool.false_or]
  split
  · rename_i empty
    refine ⟨"", .inl rfl, ?_⟩
    rw [show p.text = "" from eq_of_beq empty, String.empty_append, String.empty_append]
  · split
    · exact ⟨"", .inl rfl, by rw [String.append_empty]⟩
    · exact ⟨"/", .inr rfl, rfl⟩

/-- What is joined to an absolute path is absolute. -/
theorem isAbsolute_join (absolute : p.isAbsolute = true) : (p.join q).isAbsolute = true := by
  cases absolute' : q.isAbsolute with
  | true => rw [join_of_isAbsolute absolute', absolute']
  | false =>
    obtain ⟨between, -, text⟩ := exists_text_join p absolute'
    have head : p.text.toList.head? = some '/' := eq_of_beq absolute
    unfold isAbsolute
    rw [text, String.toList_append, String.toList_append, List.append_assoc, List.head?_append, head]
    rfl

/-- What a path is followed by stays at its end, behind characters of the path and slashes. -/
theorem join_text (p q : Path) :
    ∃ front, (p.join q).text = front ++ q.text ∧ ∀ c ∈ front.toList, c ∈ p.text.toList ∨ c = '/' := by
  cases absolute : q.isAbsolute with
  | true => exact ⟨"", by rw [join_of_isAbsolute absolute, String.empty_append], fun _ => nofun⟩
  | false =>
    obtain ⟨between, slash, text⟩ := exists_text_join p absolute
    refine ⟨p.text ++ between, text, fun c mem => ?_⟩
    rw [String.toList_append] at mem
    refine (List.mem_append.mp mem).imp_right fun inside => ?_
    rcases slash with rfl | rfl
    · cases inside
    · exact List.mem_singleton.mp inside

/-- A joined path has the characters of both and slashes. -/
theorem mem_text_join {c : Char} (mem : c ∈ (p.join q).text.toList) :
    c ∈ p.text.toList ∨ c = '/' ∨ c ∈ q.text.toList := by
  obtain ⟨front, text, inFront⟩ := join_text p q
  rw [text, String.toList_append] at mem
  rcases List.mem_append.mp mem with before | behind
  · exact (inFront c before).imp_right .inl
  · exact .inr (.inr behind)

/-- **A relative path puts its pieces behind those of the path that it is joined to.** If a slash ends that
path, then nothing stands behind the slash. -/
theorem pieces_join (written : p.isEmpty = false) (relative : q.isAbsolute = false) :
    ∃ front, (p.pieces = front ∨ p.pieces = front ++ [[]]) ∧ (p.join q).pieces = front ++ q.pieces := by
  unfold join pieces
  rw [relative, written, Bool.or_false, if_neg Bool.false_ne_true]
  split
  · rename_i slash
    obtain ⟨before, text⟩ := List.getLast?_eq_some_iff.mp (eq_of_beq slash)
    refine ⟨before.splitOn '/', .inr ?_, ?_⟩
    · rw [text, List.splitOn_append_cons_self, List.splitOn_nil]
    · rw [String.toList_append, text, List.append_assoc, List.singleton_append,
        List.splitOn_append_cons_self]
  · refine ⟨p.text.toList.splitOn '/', .inl rfl, ?_⟩
    rw [String.toList_append, String.toList_append, List.append_assoc]
    exact List.splitOn_append_cons_self _ _

/-- **The steps of a joined path** are those of both. -/
theorem steps_join (written : p.isEmpty = false) (relative : q.isAbsolute = false) :
    (p.join q).steps = p.steps ++ q.steps := by
  obtain ⟨front, before, joined⟩ := pieces_join written relative
  unfold steps
  rw [joined, List.filterMap_append]
  rcases before with same | same
  · rw [same]
  · rw [same, List.filterMap_append]
    exact congrArg (· ++ _) (List.append_nil _).symm

theorem lead_join (absolute : p.isAbsolute = true) : (p.join q).lead = [.root] :=
  isAbsolute_iff_lead.mp (isAbsolute_join absolute)

/-- A joined path ends as the path that is joined ends. -/
theorem endsInName_join_of_written (written : p.isEmpty = false) : (p.join q).EndsInName ↔ q.EndsInName := by
  cases relative : q.isAbsolute with
  | true => rw [join_of_isAbsolute relative]
  | false =>
    obtain ⟨front, -, joined⟩ := pieces_join written relative
    have last : (p.join q).pieces.getLast? = q.pieces.getLast? := by
      rw [joined, List.getLast?_append, List.getLast?_eq_some_getLast q.pieces_ne_nil, Option.some_or]
    unfold EndsInName
    rw [last]

theorem endsInName_join (absolute : p.isAbsolute = true) : (p.join q).EndsInName ↔ q.EndsInName :=
  endsInName_join_of_written (isEmpty_of_isAbsolute absolute)

/-- Paths that say the same, joined to one path, say the same. -/
theorem join_sameAs_join (absolute : p.isAbsolute = true) (same : q.sameAs r = true) :
    (p.join q).sameAs (p.join r) = true := by
  have kind := isAbsolute_eq_of_sameAs same
  cases relative : q.isAbsolute with
  | true =>
    rw [join_of_isAbsolute relative, join_of_isAbsolute (kind ▸ relative)]
    exact same
  | false =>
    refine sameAs_iff.mpr ⟨(lead_join absolute).trans (lead_join absolute).symm, ?_⟩
    have written := isEmpty_of_isAbsolute absolute
    rw [steps_join written relative, steps_join written (kind ▸ relative), (sameAs_iff.mp same).2]

/-- What a relative path is joined to can be told from the joined path. -/
theorem sameAs_of_join_sameAs {root root' : Path} (absolute : root.isAbsolute = true)
    (absolute' : root'.isAbsolute = true) (relative : q.isAbsolute = false)
    (same : (root.join q).sameAs (root'.join q) = true) : root.sameAs root' = true := by
  have steps := (sameAs_iff.mp same).2
  rw [steps_join (isEmpty_of_isAbsolute absolute) relative,
    steps_join (isEmpty_of_isAbsolute absolute') relative] at steps
  refine sameAs_iff.mpr ⟨?_, List.append_cancel_right steps⟩
  rw [isAbsolute_iff_lead.mp absolute, isAbsolute_iff_lead.mp absolute']

end PyBundle.Path
