import PyBundle.Proofs.Collect.Buckets

/-!
# Top levels that are local

Whether an import line loads something is found out for each line, and what a top level belongs to once for
all lines. So a directory without a module of its own can be on both sides: a module in it makes its name
local, and an import line that finds nothing there files the same name.

`collect_local` says that this is the only way. A top level that is local is classified exactly where a line
that imports from it loads nothing, and it never is where the top level is a module itself.
-/

namespace PyBundle

namespace DottedName

/-- The top level of a dotted name is its first segment. -/
theorem head?_segments (name : String) : (segments name).head? = some (ImportLine.topLevelOf name) := by
  have first : ∀ cs : List Char, (cs.splitOn '.').head? = some (cs.takeWhile (· != '.')) := by
    intro cs
    induction cs with
    | nil => rfl
    | cons c cs ih =>
      rw [List.splitOn_cons_eq_if_modifyHead]
      by_cases dot : c = '.'
      · simp [dot]
      · simp [dot, ih]
  simp [segments, ImportLine.topLevelOf, first]

/-- The top level is the first name on the way to a dotted name. -/
theorem topLevelOf_mem_ancestry (name : String) : ImportLine.topLevelOf name ∈ ancestry name := by
  obtain ⟨rest, split⟩ := List.head?_eq_some_iff.mp (head?_segments name)
  unfold ancestry
  refine List.mem_map.mpr ⟨0, by simp [split], ?_⟩
  simp [split, ofSegments]

end DottedName

namespace Sources

variable {s : Sources} {entry : Path} {found d : Discovery} {m : LocalModule} {l : ImportLine} {x : String}

/-- **A top level is classified:** it is in a bucket of names, or what provides it is installed and a line that
imports from it brought that. -/
def IsClassified (s : Sources) (found : Discovery) (x : String) : Prop :=
  x ∈ found.stdlib ∨ x ∈ found.unknown ∨
    ∃ pin ∈ found.external, s.classify x = .external pin ∧
      ∃ m ∈ found.modules, ∃ l, s.HasLine m l ∧ s.Unlocated m l x

/-- A line that loads nothing has a top level that is no module. -/
theorem Unlocated.locate_eq_none (unlocated : s.Unlocated m l x) :
    LocalModule.locate s.files s.roots x = none := by
  obtain ⟨a, -, rfl, nowhere⟩ := unlocated
  apply nowhere
  exact List.mem_append_left _ (DottedName.topLevelOf_mem_ancestry a.moduleName)

/-- The refused spellings have a dot, so no top level is one of them. -/
theorem Filed.mem_unknown_iff (filed : s.Filed (s.UnlocatedIn found) (s.RefusedIn found) found)
    (free : '.' ∉ x.toList) : x ∈ found.unknown ↔ s.UnlocatedIn found x ∧ s.classify x = .unknown := by
  rw [filed.unknown]
  refine or_iff_left ?_
  rintro ⟨m, -, l, -, refused, rfl⟩
  exact free (ImportLine.dot_mem_spelled refused.1)

/-- **A name without a dot is classified exactly where a line with that top level loads nothing.** -/
theorem Buckets.isClassified_iff (buckets : s.Buckets found) (free : '.' ∉ x.toList) :
    s.IsClassified found x ↔ s.UnlocatedIn found x := by
  have filed := buckets.filed
  unfold IsClassified
  rw [filed.stdlib, filed.mem_unknown_iff free]
  constructor
  · rintro (⟨named, -⟩ | ⟨named, -⟩ | ⟨_, -, -, named⟩)
    · exact named
    · exact named
    · exact named
  · intro named
    cases kind : s.classify x with
    | stdlib => exact .inl ⟨named, rfl⟩
    | unknown => exact .inr (.inl ⟨named, rfl⟩)
    | external pin =>
      have mem : pin ∈ found.external := (filed.external pin).mpr ⟨x, named, kind⟩
      exact .inr (.inr ⟨pin, mem, rfl, named⟩)

/-- **When a top level is local and classified.** This takes an import line that loads nothing, and it never
happens to a top level that is a module itself. -/
theorem collect_local (s : Sources) (entry : Path) (limit : Nat)
    (success : (s.collect entry limit).1 = .ok ()) :
    ∀ m ∈ (s.collect entry limit).2.modules,
      (s.IsClassified (s.collect entry limit).2 (ImportLine.topLevelOf m.moduleName) ↔
        s.UnlocatedIn (s.collect entry limit).2 (ImportLine.topLevelOf m.moduleName)) ∧
      (s.IsClassified (s.collect entry limit).2 (ImportLine.topLevelOf m.moduleName) →
        LocalModule.locate s.files s.roots (ImportLine.topLevelOf m.moduleName) = none) := by
  intro m _
  have buckets : s.Buckets (s.collect entry limit).2 := by
    obtain ⟨d, taken, reach, left⟩ := exists_reaches_of_collect success
    rw [left]
    exact reach.buckets _
  have free := ImportLine.dot_notMem_topLevel { moduleName := m.moduleName }
  have iff := buckets.isClassified_iff free
  refine ⟨iff, fun classified => ?_⟩
  obtain ⟨_, -, _, -, unlocated⟩ := iff.mp classified
  exact unlocated.locate_eq_none

/-- A program that finds one module in a directory and looks for another one there. -/
def halfEmpty : Sources where
  files := {
    entries := [
      ("main.py", .file "import a.b\nimport a.c\n".toUTF8 false),
      ("a", .directory [("b.py", .file "".toUTF8 false)])] }
  roots := [⟨"/"⟩]
  parse source := if source = "" then .ok [] else .ok [{ moduleName := "a.b" }, { moduleName := "a.c" }]
  classify _ := .unknown

/-- The directory is local by one line, and unknown by the other. -/
theorem halfEmpty_local_and_unknown :
    (halfEmpty.collect ⟨"/main.py"⟩).1 = .ok () ∧
      (∃ m ∈ (halfEmpty.collect ⟨"/main.py"⟩).2.modules, ImportLine.topLevelOf m.moduleName = "a") ∧
      "a" ∈ (halfEmpty.collect ⟨"/main.py"⟩).2.unknown := by
  obtain ⟨ended, found⟩ : (halfEmpty.collect ⟨"/main.py"⟩).1.toOption = some () ∧
      (∃ m ∈ (halfEmpty.collect ⟨"/main.py"⟩).2.modules, ImportLine.topLevelOf m.moduleName = "a") ∧
      "a" ∈ (halfEmpty.collect ⟨"/main.py"⟩).2.unknown := by decide +kernel
  exact ⟨eq_ok_of_toOption ended, found⟩

/-- The import line of the directory that loads nothing is there. -/
theorem collect_local_halfEmpty :
    (halfEmpty.collect ⟨"/main.py"⟩).1 = .ok () ∧
      (⟨⟨"/a/b.py"⟩, ⟨"a/b.py"⟩, false, "a.b"⟩ : LocalModule) ∈ (halfEmpty.collect ⟨"/main.py"⟩).2.modules ∧
      halfEmpty.UnlocatedIn (halfEmpty.collect ⟨"/main.py"⟩).2 "a" := by
  obtain ⟨ended, mem, unknown⟩ : (halfEmpty.collect ⟨"/main.py"⟩).1.toOption = some () ∧
      (⟨⟨"/a/b.py"⟩, ⟨"a/b.py"⟩, false, "a.b"⟩ : LocalModule) ∈ (halfEmpty.collect ⟨"/main.py"⟩).2.modules ∧
      "a" ∈ (halfEmpty.collect ⟨"/main.py"⟩).2.unknown := by decide +kernel
  have success : (halfEmpty.collect ⟨"/main.py"⟩).1 = .ok () := eq_ok_of_toOption ended
  have exact_ := (collect_local halfEmpty ⟨"/main.py"⟩ halfEmpty.depthLimit success _ mem).1
  exact ⟨success, mem, exact_.mp (.inr (.inl unknown))⟩

end Sources

end PyBundle
