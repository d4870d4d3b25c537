import PyBundle.Proofs.Collect.Closure
import PyBundle.Proofs.FileSystem.File
import PyBundle.Proofs.Module.FileNames
import PyBundle.Proofs.Path.Parent

/-!
# Where the modules that are found stand

A module that is located stands below the first root where its relative path leads to a file. The names that
a walk looks up are built on the way: a relative import is seen from the name of its importer, and items are
put behind names. As long as nothing that is spelled has a slash, no name has one, and then the relative path
of a module leads through names of directories to the name of its file.
-/

namespace PyBundle.Sources

variable {s : Sources} {entry root : Path} {m n : LocalModule}

/-- **A module stands below a root,** the first one where its relative path leads to a file. -/
structure StandsBelow (s : Sources) (m : LocalModule) (root : Path) : Prop where
  first : ∃ before after, s.roots = before ++ root :: after ∧
    ∀ earlier ∈ before, s.files.isFile (earlier.join m.relativePath) = false
  file : s.files.isFile (root.join m.relativePath) = true
  path : (root.join m.relativePath).sameAs m.absolutePath = true

theorem StandsBelow.mem (stands : s.StandsBelow m root) : root ∈ s.roots := by
  obtain ⟨before, after, split, -⟩ := stands.first
  rw [split]
  exact List.mem_append_right _ List.mem_cons_self

/-- **A module that is located stands below the root where it is found.** No root before has it in any form. -/
theorem exists_standsBelow_of_locate (located : LocalModule.locate s.files s.roots m.moduleName = some m) :
    ∃ root, s.StandsBelow m root := by
  obtain ⟨-, before, root, after, split, earlier, isPackage, held, -, below⟩ :=
    LocalModule.locate_eq_some.mp located
  have relative : m.relativePath =
      LocalModule.candidatePath (DottedName.segments m.moduleName) isPackage := by rw [below]; rfl
  have absolute : m.absolutePath = root.join m.relativePath := by rw [below]; rfl
  unfold LocalModule.Holds LocalModule.below at held earlier
  refine ⟨root, ⟨before, after, split, fun r mem => ?_⟩, ?_, ?_⟩
  · rw [relative]
    exact Bool.eq_false_iff.mpr (earlier r mem isPackage)
  · rw [relative]
    exact held
  · rw [absolute]
    exact Path.sameAs_refl _

/-- A module that can be read is a file. -/
theorem isFile_of_linesOf {lines : List ImportLine} (read : s.linesOf m = .ok lines) :
    s.files.isFile m.absolutePath = true := by
  unfold linesOf at read
  split at read
  · cases read
  · rename_i source text
    unfold FileSystem.readText FileSystem.read at text
    unfold FileSystem.isFile
    cases entry : s.files.node m.absolutePath with
    | error fault =>
      rw [entry] at text
      cases text
    | ok n =>
      rw [entry] at text
      cases n with
      | file => rfl
      | link => cases text
      | directory => cases text

/-! ## Names -/

/-- **The segments of names** are segments that are spelled. -/
theorem Reachable.each {P : String → Prop} (blank : P "")
    (spelled : ∀ m, s.Reachable entry m → ∀ l, s.HasLine m l → l.Spells P) (reach : s.Reachable entry m) :
    DottedName.Each P m.moduleName := by
  induction reach with
  | refl =>
    intro segment mem
    rwa [List.mem_singleton.mp mem]
  | @tail m t before imports ih =>
    obtain ⟨l, a, name, line, absolute, candidate, located⟩ := imports
    rw [(LocalModule.moduleName_of_locate located).1]
    exact ((spelled m before l line).absolute blank ih absolute).candidates blank candidate

/-- **Names have no slash,** if none is spelled with one. -/
theorem Reachable.slashFree
    (spelled : ∀ m, s.Reachable entry m → ∀ l, s.HasLine m l → l.IsSlashFree)
    (reach : s.Reachable entry m) : SlashFree m.moduleName :=
  DottedName.slashFree_iff.mpr <|
    reach.each (by decide) fun m before l line => ImportLine.isSlashFree_iff.mp (spelled m before l line)

/-- The names on the way to a module from its root. -/
def wayTo (m : LocalModule) : List String :=
  LocalModule.fileNames (DottedName.segments m.moduleName) m.isPackage

/-- **A module that is located has a relative path of file names.** -/
theorem relativePath_of_locate (located : LocalModule.locate s.files s.roots m.moduleName = some m)
    (free : SlashFree m.moduleName) :
    (wayTo m ≠ [] ∧ ∀ name ∈ wayTo m, IsFileName name) ∧ m.relativePath = .ofNames (wayTo m) := by
  obtain ⟨full, before, root, after, -, -, isPackage, -, -, below⟩ := LocalModule.locate_eq_some.mp located
  have proper : ∀ segment ∈ DottedName.segments m.moduleName, IsFileName segment :=
    fun segment mem => LocalModule.isFileName_of_mem_segments full free mem
  have form : m.isPackage = isPackage := congrArg LocalModule.isPackage below
  refine ⟨⟨LocalModule.fileNames_ne_nil (DottedName.segments_ne_nil _), fun name mem =>
    LocalModule.isFileName_of_mem_fileNames proper mem⟩, ?_⟩
  unfold wayTo
  rw [← LocalModule.candidatePath_eq proper (DottedName.segments_ne_nil _), form, below]
  rfl

/-- The way to a module and its form tell its name. -/
theorem moduleName_eq_of_wayTo_eq (form : m.isPackage = n.isPackage) (way : wayTo m = wayTo n) :
    m.moduleName = n.moduleName := by
  unfold wayTo at way
  rw [form] at way
  exact DottedName.segments_injective (LocalModule.fileNames_injective way)

/-- **The relative path of every module leads through file names,** if the entry is a file. -/
theorem Reachable.exists_fileNames
    (spelled : ∀ m, s.Reachable entry m → ∀ l, s.HasLine m l → l.IsSlashFree)
    (file : s.files.isFile entry = true) (reach : s.Reachable entry m) :
    ∃ names, names ≠ [] ∧ (∀ name ∈ names, IsFileName name) ∧ m.relativePath = .ofNames names := by
  rcases reach.eq_entry_or_located with rfl | ⟨-, located⟩
  · obtain ⟨name, fileName⟩ := Path.exists_fileName? (FileSystem.endsInName_of_isFile file)
    refine ⟨[name], List.cons_ne_nil _ _,
      List.forall_mem_singleton.mpr (isFileName_of_fileName? fileName), ?_⟩
    unfold LocalModule.entry Path.ofNames
    rw [fileName, String.intercalate_singleton]
    rfl
  · obtain ⟨⟨some, proper⟩, relative⟩ := relativePath_of_locate located (reach.slashFree spelled)
    exact ⟨wayTo m, some, proper, relative⟩

end PyBundle.Sources
