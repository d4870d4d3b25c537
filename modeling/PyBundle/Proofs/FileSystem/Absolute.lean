import PyBundle.Proofs.FileSystem.Paths

/-!
# Absolute forms and normal forms

The absolute form of a path names the same place as the path, and it ends in its last step, apart from slashes
behind it. The normal form of an absolute path is the place that the path names: folding each `..` into the name
before it is what the steps do where nothing is a link.
-/

namespace PyBundle

open FileSystem (isBlank stepTo after)

namespace Path

variable {p q directory : Path} {names : List String} {name : String}

/-! ## Normal forms -/

/-- **The place that the normal form of a path names.** -/
def normalPlace (p : Path) : Place := p.normalComponents.filterMap Component.name?

/-- The stack of a path that has led to a place from the root. -/
def stackOf (here : Place) : List Component := (here.map Component.name).reverse ++ [.root]

/-- **Taking a step onto the stack is going there.** -/
theorem climb_stackOf {c : Component} (mem : c ∈ p.steps) (here : Place) :
    Component.climb (stackOf here) c = stackOf (stepTo here c.text) := by
  rcases eq_up_or_name mem with rfl | ⟨name, rfl, isName⟩
  · have gone : stepTo here ".." = here.dropLast := by simp [stepTo, isBlank]
    rw [show Component.text .up = ".." from rfl, gone]
    rcases List.eq_nil_or_concat here with rfl | ⟨front, last, rfl⟩
    · rfl
    · rw [List.concat_eq_append, List.dropLast_concat]
      simp [stackOf, Component.climb]
  · obtain ⟨notBlank, notUp⟩ := FileSystem.isBlank_of_isFileName isName
    have gone : stepTo here name = here ++ [name] := by simp [stepTo, notBlank, notUp]
    rw [show Component.text (.name name) = name from rfl, gone]
    simp [stackOf, Component.climb]

/-- **The normal form of an absolute path is where its steps lead from the root.** -/
theorem normalPlace_eq (absolute : p.isAbsolute = true) : p.normalPlace = after [] p.way := by
  have walked : ∀ (cs : List Component) (here : Place), (∀ c ∈ cs, c ∈ p.steps) →
      cs.foldl Component.climb (stackOf here) = stackOf (after here (cs.map Component.text)) := by
    intro cs
    induction cs with
    | nil => exact fun _ _ => rfl
    | cons c cs ih =>
      intro here known
      obtain ⟨first, others⟩ := List.forall_mem_cons.mp known
      rw [List.foldl_cons, climb_stackOf first, ih _ others]
      rfl
  have whole := walked p.steps [] fun _ mem => mem
  unfold normalPlace normalComponents
  rw [components_eq, isAbsolute_iff_lead.mp absolute, List.singleton_append, List.foldl_cons]
  rw [show Component.climb [] .root = stackOf [] from rfl, whole]
  unfold stackOf way
  rw [List.reverse_append, List.reverse_reverse, List.reverse_singleton, List.singleton_append,
    List.filterMap_cons_none rfl, List.filterMap_map]
  exact List.filterMap_some

/-! ## The end of a path -/

theorem endsInName_push (p : Path) (isName : IsFileName name) : (p.push name).EndsInName := by
  have one : pieces ⟨name⟩ = [name.toList] := by
    have proper : ∀ other ∈ [name], IsFileName other := by simpa using isName
    simpa [ofNames] using pieces_ofNames proper (List.cons_ne_nil name [])
  have last : ∃ front, (p.push name).pieces = front ++ [name.toList] := by
    cases empty : p.isEmpty with
    | false =>
      obtain ⟨front, -, split⟩ := pieces_join empty isName.relative
      exact ⟨front, by rw [push, split, one]⟩
    | true =>
      have joined : p.push name = ⟨name⟩ := by
        unfold push join
        rw [empty, Bool.or_true, if_pos rfl]
      exact ⟨[], by rw [joined, one, List.nil_append]⟩
  obtain ⟨front, split⟩ := last
  exact ⟨name.toList, name, by rw [split, List.getLast?_concat], isName.ofPiece?⟩

/-- A path that ends in a name is not empty and does not end with a slash. -/
theorem EndsInName.unclosed (ends : p.EndsInName) : p.isEmpty = false ∧ p.endsWithSlash = false := by
  obtain ⟨piece, name, last, is⟩ := ends
  have closed : ∀ front, p.pieces ≠ front ++ [[]] := by
    intro front split
    rw [split, List.getLast?_concat] at last
    cases last
    cases is
  constructor
  · refine beq_false_of_ne fun empty => closed [] ?_
    unfold pieces
    rw [empty]
    rfl
  · refine beq_false_of_ne fun slash => ?_
    obtain ⟨before, text⟩ := List.getLast?_eq_some_iff.mp slash
    refine closed (before.splitOn '/') ?_
    unfold pieces
    rw [text, List.splitOn_append_cons_self, List.splitOn_nil]

/-- Slashes behind a path that ends otherwise are dropped. -/
theorem dropSlashes_of_text (unclosed : p.isEmpty = false ∧ p.endsWithSlash = false) (n : Nat)
    (text : q.text.toList = p.text.toList ++ List.replicate n '/') : FileSystem.dropSlashes q = p := by
  have some : p.text.toList ≠ [] := by simpa [isEmpty] using unclosed.1
  have last : p.text.toList.reverse.dropWhile (· == '/') = p.text.toList.reverse := by
    have other := unclosed.2
    unfold endsWithSlash at other
    rw [List.getLast?_eq_head?_reverse] at other
    cases turned : p.text.toList.reverse with
    | nil => rfl
    | cons c rest =>
      rw [turned] at other
      exact List.dropWhile_cons_of_neg (by simpa using other)
  have kept : (q.text.toList.reverse.dropWhile (· == '/')).reverse = p.text.toList := by
    rw [text, List.reverse_append, List.reverse_replicate, List.dropWhile_append_of_pos, last, List.reverse_reverse]
    simp
  unfold FileSystem.dropSlashes
  rw [kept, if_neg (by simpa using some), String.ofList_toList]

theorem dropSlashes_of_endsInName (ends : p.EndsInName) : FileSystem.dropSlashes p = p :=
  dropSlashes_of_text ends.unclosed 0 (List.append_nil _).symm

theorem dropSlashes_push_empty (ends : p.EndsInName) : FileSystem.dropSlashes (p.push "") = p := by
  obtain ⟨written, unclosed⟩ := ends.unclosed
  refine dropSlashes_of_text ends.unclosed 1 ?_
  unfold push join
  rw [written, unclosed, show isAbsolute ⟨""⟩ = false by decide]
  simp

/-- A path that ends with no slash ends as without slashes at its end. -/
theorem endsInName_of_dropSlashes (written : p.isEmpty = false) (unclosed : p.endsWithSlash = false)
    (ends : (FileSystem.dropSlashes p).EndsInName) : p.EndsInName := by
  obtain ⟨n, text, -⟩ := exists_dropSlashes written
  cases n with
  | zero =>
    rw [List.replicate_zero, List.append_nil, String.toList_inj] at text
    rwa [show p = FileSystem.dropSlashes p from congrArg Path.mk text]
  | succ n =>
    rw [List.replicate_succ', ← List.append_assoc] at text
    unfold endsWithSlash at unclosed
    rw [text, List.getLast?_concat] at unclosed
    cases unclosed

/-! ## Absolute forms -/

/-- **The absolute form of a path ends in its last step,** if that is a name, apart from slashes behind it. -/
theorem endsInName_of_absolute? (start : directory.isEmpty = false)
    (ends : ∀ name, directory.steps.getLast? = some (.name name) → directory.EndsInName)
    (made : p.absolute? directory = some q) (last : q.steps.getLast? = some (.name name)) :
    (FileSystem.dropSlashes q).EndsInName := by
  have told := (absolute?_spec start made).1
  obtain ⟨front, starts, rfl⟩ := absolute?_eq made
  have ended : (front.pushAll p.steps).EndsInName := by
    rcases List.eq_nil_or_concat p.steps with none | ⟨before, c, split⟩
    · rw [told, none, List.append_nil] at last
      rcases starts with ⟨absolute, -, -⟩ | ⟨relative, rfl⟩
      · rw [absolute, if_pos rfl] at last
        cases last
      · rw [relative, if_neg Bool.false_ne_true] at last
        rw [none]
        exact ends name last
    · rw [List.concat_eq_append] at split
      rw [told, split, ← List.append_assoc, List.getLast?_concat] at last
      cases last
      have isName : IsFileName name := isFileName_of_mem_steps (p := p) (by simp [split])
      rw [split, pushAll, List.foldl_append]
      exact endsInName_push _ isName
  split
  · exact (dropSlashes_push_empty ended).symm ▸ ended
  · exact (dropSlashes_of_endsInName ended).symm ▸ ended

end Path

namespace FileSystem

variable {fs : FileSystem} {p q : Path} {name : String}

/-- The pieces of the directory in which relative paths start. -/
theorem pieces_workPath (proper : ∀ name ∈ fs.workPlace, IsFileName name) (some : fs.workPlace ≠ []) :
    fs.workPath.pieces = [] :: fs.workPlace.map String.toList := by
  have inner := Path.pieces_ofNames proper some
  unfold Path.pieces at inner ⊢
  unfold workPath
  rw [String.toList_append, show "/".toList = ['/'] from rfl, List.singleton_append,
    List.splitOn_cons_eq_if_modifyHead, if_pos (beq_self_eq_true '/')]
  exact congrArg ([] :: ·) inner

/-- **The steps of the directory in which relative paths start** are the names on the way to it. -/
theorem steps_workPath (proper : ∀ name ∈ fs.workPlace, IsFileName name) :
    fs.workPath.steps = fs.workPlace.map .name := by
  by_cases root : fs.workPlace = []
  · unfold workPath
    rw [root]
    decide
  · have inner := Path.steps_ofNames proper root
    unfold Path.steps at inner ⊢
    rw [Path.pieces_ofNames proper root] at inner
    rw [pieces_workPath proper root, List.filterMap_cons_none rfl, inner]

/-- **The absolute form of a path names the place that the path names,** if relative paths start at file names. -/
theorem named_of_absolute_of (proper : p.isAbsolute = false → ∀ name ∈ fs.workPlace, IsFileName name)
    (made : fs.absolute p = .ok q) : fs.named q = fs.named p := by
  unfold absolute at made
  split at made
  · rename_i made'
    cases made
    have absolute := Path.isAbsolute_of_absolute? fs.isAbsolute_workPath made'
    have told := (Path.absolute?_spec (Path.isEmpty_of_isAbsolute fs.isAbsolute_workPath) made').1
    rw [named_eq, named_eq]
    unfold startOf Path.way
    rw [absolute, if_pos rfl, told]
    cases relative : p.isAbsolute with
    | true => rfl
    | false =>
      have front : after [] fs.workPlace = [] ++ fs.workPlace :=
        after_of_forall fun name mem => isBlank_of_isFileName (proper relative name mem)
      rw [if_neg Bool.false_ne_true, if_neg Bool.false_ne_true, steps_workPath (proper relative), List.map_append,
        List.map_map, Path.Component.text_comp_name, List.map_id, after_append, front, List.nil_append]
  · cases made

theorem named_of_absolute (proper : ∀ name ∈ fs.workPlace, IsFileName name) (made : fs.absolute p = .ok q) :
    fs.named q = fs.named p := named_of_absolute_of (fun _ => proper) made

/-- An absolute form ends in its last step, if that is a name, apart from slashes behind it. -/
theorem endsInName_of_absolute (proper : ∀ name ∈ fs.workPlace, IsFileName name) (made : fs.absolute p = .ok q)
    (last : q.steps.getLast? = some (.name name)) : (dropSlashes q).EndsInName := by
  unfold absolute at made
  split at made
  · rename_i made'
    cases made
    refine Path.endsInName_of_absolute? (Path.isEmpty_of_isAbsolute fs.isAbsolute_workPath) ?_ made' last
    intro name last
    rw [steps_workPath proper, List.getLast?_map] at last
    obtain ⟨name', last, same⟩ := Option.map_eq_some_iff.mp last
    cases same
    have some : fs.workPlace ≠ [] := by
      rintro root
      rw [root] at last
      cases last
    have isName : IsFileName name := proper name (List.mem_of_getLast? last)
    refine ⟨name.toList, name, ?_, isName.ofPiece?⟩
    rw [pieces_workPath proper some, List.getLast?_cons, List.getLast?_map, last]
    rfl
  · cases made

/-- **What an absolute path names is its normal form.** -/
theorem named_eq_normalPlace (fs : FileSystem) (absolute : p.isAbsolute = true) : fs.named p = p.normalPlace := by
  rw [Path.normalPlace_eq absolute, named_eq]
  unfold startOf
  rw [absolute, if_pos rfl]

end FileSystem

end PyBundle
