import PyBundle.Module.Locate

/-!
# The first match

`LocalModule.locate` looks a name up in the roots in order, and in each root as a package before it looks
for a plain module. What it finds is the first match, and the module says where it was found.
-/

namespace PyBundle.LocalModule

variable {fs : FileSystem} {roots : List Path} {name : String} {m : LocalModule}

/-- **The module of a name in one of its forms below a root,** whether or not there is such a file. -/
def below (root : Path) (name : String) (isPackage : Bool) : LocalModule where
  absolutePath := root.join (candidatePath (DottedName.segments name) isPackage)
  relativePath := candidatePath (DottedName.segments name) isPackage
  isPackage
  moduleName := name

/-- Whether a root holds a name in one of its forms. -/
def Holds (fs : FileSystem) (name : String) (isPackage : Bool) (root : Path) : Prop :=
  fs.isFile (below root name isPackage).absolutePath = true

theorem locateAt_eq_some {root : Path} {isPackage : Bool} :
    locateAt fs root name isPackage = some m ↔
      Holds fs name isPackage root ∧ m = below root name isPackage := by
  unfold locateAt Holds
  dsimp only [below]
  split
  · rename_i file
    simp only [file, Option.some.injEq, true_and]
    exact eq_comm
  · rename_i noFile
    simp only [noFile, reduceCtorEq, false_and]

theorem locateAt_eq_none {root : Path} {isPackage : Bool} :
    locateAt fs root name isPackage = none ↔ ¬ Holds fs name isPackage root := by
  unfold locateAt Holds
  dsimp only [below]
  split
  · rename_i file
    simp only [file, reduceCtorEq, not_true_eq_false]
  · rename_i noFile
    exact ⟨fun _ => noFile, fun _ => rfl⟩

/-- **In a root the package wins:** a plain module is only found where there is no package. -/
theorem forms_eq_some {root : Path} :
    ([true, false].findSome? fun isPackage => locateAt fs root name isPackage) = some m ↔
      ∃ isPackage, Holds fs name isPackage root ∧ (isPackage = false → ¬ Holds fs name true root) ∧
        m = below root name isPackage := by
  simp only [List.findSome?_cons, List.findSome?_nil]
  cases package : locateAt fs root name true with
  | some n =>
    obtain ⟨held, rfl⟩ := locateAt_eq_some.mp package
    simp only [Option.some.injEq]
    constructor
    · rintro rfl
      exact ⟨true, held, nofun, rfl⟩
    · rintro ⟨isPackage, _, plain, rfl⟩
      cases isPackage with
      | true => rfl
      | false => exact absurd held (plain rfl)
  | none =>
    have noPackage := locateAt_eq_none.mp package
    constructor
    · intro found
      cases plain : locateAt fs root name false with
      | none =>
        rw [plain] at found
        cases found
      | some n =>
        rw [plain] at found
        cases found
        obtain ⟨held, rfl⟩ := locateAt_eq_some.mp plain
        exact ⟨false, held, fun _ => noPackage, rfl⟩
    · rintro ⟨isPackage, held, _, rfl⟩
      cases isPackage with
      | true => exact absurd held noPackage
      | false => rw [locateAt_eq_some.mpr ⟨held, rfl⟩]

theorem forms_eq_none {root : Path} :
    ([true, false].findSome? fun isPackage => locateAt fs root name isPackage) = none ↔
      ∀ isPackage, ¬ Holds fs name isPackage root := by
  simp only [List.findSome?_eq_none_iff, List.forall_mem_cons, locateAt_eq_none]
  constructor
  · rintro ⟨package, plain, -⟩ isPackage
    cases isPackage with
    | true => exact package
    | false => exact plain
  · intro unheld
    exact ⟨unheld true, unheld false, fun _ mem => absurd mem List.not_mem_nil⟩

/-- **A name is located where it is held first:** no root before holds it in any form. -/
theorem locate_eq_some :
    locate fs roots name = some m ↔
      "" ∉ DottedName.segments name ∧ ∃ before root after, roots = before ++ root :: after ∧
        (∀ r ∈ before, ∀ isPackage, ¬ Holds fs name isPackage r) ∧
        ∃ isPackage, Holds fs name isPackage root ∧
          (isPackage = false → ¬ Holds fs name true root) ∧ m = below root name isPackage := by
  unfold locate
  by_cases blank : "" ∈ DottedName.segments name
  · simp only [List.contains_iff_mem, blank, if_true, reduceCtorEq, not_true_eq_false, false_and]
  · rw [if_neg (by simpa only [List.contains_iff_mem] using blank), List.findSome?_eq_some_iff]
    simp only [forms_eq_some, forms_eq_none, blank, not_false_eq_true, true_and]
    constructor
    · rintro ⟨before, root, after, split, here, earlier⟩
      exact ⟨before, root, after, split, earlier, here⟩
    · rintro ⟨before, root, after, split, earlier, here⟩
      exact ⟨before, root, after, split, here, earlier⟩

/-- A located module has the name under which it is looked up, which is not empty. -/
theorem moduleName_of_locate (found : locate fs roots name = some m) :
    m.moduleName = name ∧ name ≠ "" := by
  obtain ⟨blank, _, _, _, _, _, _, _, _, rfl⟩ := locate_eq_some.mp found
  refine ⟨rfl, ?_⟩
  rintro rfl
  exact blank (by decide)

/-- **A name is not located if and only if** a segment is empty or no root holds it in any form. -/
theorem locate_eq_none :
    locate fs roots name = none ↔
      "" ∈ DottedName.segments name ∨ ∀ root ∈ roots, ∀ isPackage, ¬ Holds fs name isPackage root := by
  unfold locate
  by_cases blank : "" ∈ DottedName.segments name
  · simp only [List.contains_iff_mem, blank, if_true, true_or]
  · rw [if_neg (by simpa only [List.contains_iff_mem] using blank), List.findSome?_eq_none_iff]
    simp only [forms_eq_none, blank, false_or]

/-- A name that a root holds in some form is located. -/
theorem exists_locate {root : Path} {isPackage : Bool} (full : "" ∉ DottedName.segments name) (mem : root ∈ roots)
    (holds : Holds fs name isPackage root) : ∃ t, locate fs roots name = some t :=
  Option.ne_none_iff_exists'.mp fun none =>
    (locate_eq_none.mp none).elim full fun unheld => unheld root mem isPackage holds

end PyBundle.LocalModule
