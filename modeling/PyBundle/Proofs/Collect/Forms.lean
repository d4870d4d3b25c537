import PyBundle.Proofs.Collect.Shape

/-!
# The forms of what is found

Modules are found under roots, one shadowed by another, and each has a relative path. As long as no import spells
`__init__`, a relative path tells the form of its module: then only packages have files of this name, and a relative
path in the form of a package is the one of a module that is found as a package under its name
(`Reachable.isPackage_of_relativePath`). So what is shadowed has no relative path among those that are found.
-/

namespace PyBundle

/-- **A segment that an import may spell:** it has no slash, and it does not name the file of a package. -/
structure IsModuleSegment (segment : String) : Prop where
  slashFree : SlashFree segment
  notInit : segment ≠ "__init__"

instance (segment : String) : Decidable (IsModuleSegment segment) :=
  decidable_of_iff (SlashFree segment ∧ segment ≠ "__init__")
    ⟨fun ⟨slashFree, notInit⟩ => ⟨slashFree, notInit⟩, fun ⟨slashFree, notInit⟩ => ⟨slashFree, notInit⟩⟩

/-- An import line that spells such segments has no slash. -/
theorem ImportLine.Spells.isSlashFree {l : ImportLine} (spells : l.Spells IsModuleSegment) : l.IsSlashFree :=
  ImportLine.isSlashFree_iff.mpr ⟨fun segment mem => (spells.name segment mem).slashFree,
    fun item isItem segment mem => (spells.items item isItem segment mem).slashFree⟩

namespace Sources

open DottedName (Each)

variable {s : Sources} {entry root : Path} {m : LocalModule} {name : String} {isPackage : Bool}

/-- **A name is located if its path in some form is the relative path of a module that is found.** -/
theorem StandsBelow.exists_locate (stands : s.StandsBelow m root) (full : "" ∉ DottedName.segments name)
    (same : m.relativePath = LocalModule.candidatePath (DottedName.segments name) isPackage) :
    ∃ t, LocalModule.locate s.files s.roots name = some t := by
  have holds : LocalModule.Holds s.files name isPackage root := by
    have file := stands.file
    rwa [same] at file
  exact LocalModule.exists_locate full stands.mem holds

/-- **A name is located as a package if its path in that form is the relative path of a module that is found.** -/
theorem Reachable.isPackage_of_relativePath (file : s.files.isFile entry = true)
    (spelled : ∀ m, s.Reachable entry m → ∀ l, s.HasLine m l → l.Spells IsModuleSegment)
    (reach : s.Reachable entry m) (full : "" ∉ DottedName.segments name) (each : Each IsModuleSegment name)
    (same : m.relativePath = LocalModule.candidatePath (DottedName.segments name) true) :
    m.isPackage = true ∧ LocalModule.locate s.files s.roots name = some m := by
  have proper : ∀ segment ∈ DottedName.segments name, IsFileName segment := fun segment mem =>
    LocalModule.isFileName_of_mem_segments full (DottedName.slashFree_iff.mpr fun _ mem => (each _ mem).slashFree) mem
  have properNames : ∀ n ∈ LocalModule.fileNames (DottedName.segments name) true, IsFileName n := fun _ =>
    LocalModule.isFileName_of_mem_fileNames proper
  have someNames : LocalModule.fileNames (DottedName.segments name) true ≠ [] :=
    LocalModule.fileNames_ne_nil (DottedName.segments_ne_nil name)
  rw [LocalModule.candidatePath_eq proper (DottedName.segments_ne_nil name)] at same
  rcases reach.eq_entry_or_located with rfl | ⟨-, located⟩
  · -- The relative path of the entry has one name, and a package is in a directory.
    obtain ⟨own, -, isName, relative, -⟩ := exists_entry_name file
    have single : (⟨own⟩ : Path) = .ofNames [own] := by
      unfold Path.ofNames
      rw [String.intercalate_singleton]
    rw [relative, single] at same
    have names := Path.ofNames_injective (by simpa using isName) properNames (List.cons_ne_nil _ _) someNames same
    rw [LocalModule.fileNames_package (DottedName.segments_ne_nil name)] at names
    rcases List.append_eq_singleton_iff.mp names.symm with ⟨none, -⟩ | ⟨-, none⟩
    · exact absurd none (DottedName.segments_ne_nil name)
    · cases none
  · have each' : Each IsModuleSegment m.moduleName := reach.each (by decide) spelled
    have free : SlashFree m.moduleName := DottedName.slashFree_iff.mpr fun _ mem => (each' _ mem).slashFree
    obtain ⟨⟨some', proper'⟩, relative⟩ := relativePath_of_locate located free
    have way : wayTo m = LocalModule.fileNames (DottedName.segments name) true :=
      Path.ofNames_injective proper' properNames some' someNames (relative.symm.trans same)
    obtain ⟨form, segments⟩ := LocalModule.form_of_fileNames_eq way (DottedName.segments_ne_nil _)
      (DottedName.segments_ne_nil _) (fun mem => (each' _ mem).notInit rfl) fun mem => (each _ mem).notInit rfl
    rw [DottedName.segments_injective segments] at located
    exact ⟨form, located⟩

end Sources

end PyBundle
