import PyBundle.Proofs.Bundle.Manifest
import PyBundle.Proofs.Distribution.Index

/-!
# Which distributions are pinned

An import belongs to the first distribution that claims it. It is pinned under the name as this distribution spells it,
and at the version that counts for all spellings of the name. So no name is pinned twice, but a distribution is pinned
under each of its names that an import leads to (`spelledTwice_pinned`).

`collect_pinned` says which distributions are pinned, and when each of them is pinned once.
-/

namespace PyBundle

open PyBundle.Distribution (Index normalizeName recordsOf)
open Syntax (ParseError)

namespace Distribution.Index

variable {index : Index} {x : String} {pin : Pin}

/-- **What is pinned for a name** that is not standard: its distribution, at the version for this. -/
theorem classify_eq_external_iff :
    index.classify x = .external pin ↔
      isStandard x = false ∧ index.providerOf x = some pin.name ∧ index.versionOf pin.name = some pin.version := by
  unfold classify
  cases isStandard x with
  | true => simp only [if_true, reduceCtorEq, false_and]
  | false =>
    rw [if_neg Bool.false_ne_true]
    cases index.providerOf x with
    | none => simp only [reduceCtorEq, false_and, and_false]
    | some name =>
      dsimp only
      constructor
      · intro pinned
        cases version : index.versionOf name with
        | none =>
          rw [version] at pinned
          cases pinned
        | some v =>
          rw [version] at pinned
          cases pinned
          exact ⟨rfl, rfl, version⟩
      · rintro ⟨-, provided, version⟩
        cases provided
        rw [version]

/-- **All spellings of a name have one version.** -/
theorem versionOf_congr {name other : String} (same : normalizeName name = normalizeName other) :
    index.versionOf name = index.versionOf other := by
  unfold versionOf
  rw [same]

end Distribution.Index

namespace Sources

variable {s : Sources} {found : Discovery} {records : List Distribution}

/-- **A distribution is asked for:** it is the first of some that claims a name which loads no module and is not
standard, and the first of them that has a version for its name has this one. -/
def Requires (s : Sources) (found : Discovery) (records : List Distribution) (d : Distribution)
    (version : String) : Prop :=
  ∃ x, s.UnlocatedIn found x ∧ isStandard x = false ∧ (records.find? fun e => e.importNames.contains x) = some d ∧
    (records.find? (Index.hasVersionFor d.name)).bind (·.version) = some version

/-- **The distributions that are found are those that are asked for,** as they spell their names. -/
theorem Filed.mem_external_iff {spellings : String → Prop} {pin : Pin}
    (filed : s.Filed (s.UnlocatedIn found) spellings found)
    (indexed : s.classify = (records.foldl Index.add {}).classify) :
    pin ∈ found.external ↔ ∃ d, s.Requires found records d pin.version ∧ d.name = pin.name := by
  rw [filed.external, indexed]
  have provider (x : String) : (records.foldl Index.add {}).providerOf x =
      (records.find? fun d => d.importNames.contains x).map (·.name) := by
    rw [Index.providerOf_foldl_add]
    exact Option.none_or
  have version (name : String) : (records.foldl Index.add {}).versionOf name =
      (records.find? (Index.hasVersionFor name)).bind (·.version) := by
    rw [Index.versionOf_foldl_add]
    exact Option.none_or
  constructor
  · rintro ⟨x, unlocated, pinned⟩
    obtain ⟨other, provided, known⟩ := Index.classify_eq_external_iff.mp pinned
    rw [provider] at provided
    obtain ⟨d, first, name⟩ := Option.map_eq_some_iff.mp provided
    rw [version, ← name] at known
    exact ⟨d, ⟨x, unlocated, other, first, known⟩, name⟩
  · rintro ⟨d, ⟨x, unlocated, other, first, known⟩, name⟩
    refine ⟨x, unlocated, Index.classify_eq_external_iff.mpr ⟨other, ?_, ?_⟩⟩
    · rw [provider, first, Option.map_some, name]
    · rw [version, ← name]
      exact known

/-- **Which distributions are pinned.** They are those that the imports ask for, each under its name as it spells it
itself. So no name is pinned twice, and the manifest has one line for each name. Names that are one name but for their
spelling are pinned at one version. And no distribution is pinned twice if and only if those that are asked for spell
each name in one way. -/
theorem collect_pinned (s : Sources) (entry : Path) (limit : Nat) (site : FileSystem) (directories : List Path)
    (added : List Distribution)
    (indexed : s.classify = (added.foldl Index.add (Index.ofRoots site directories).1).classify)
    (success : (s.collect entry limit).1 = .ok ()) :
    let records := directories.flatMap (recordsOf site) ++ added
    let found := (s.collect entry limit).2
    (∀ pin, pin ∈ found.external ↔ ∃ d, s.Requires found records d pin.version ∧ d.name = pin.name) ∧
    (∀ extra, ∃ pins : List Pin, pins.Perm found.external ∧ (pins.map (·.name)).Nodup ∧
      Manifest.render found.sortedExternal extra =
        String.join (pins.map fun p => p.name ++ "==" ++ p.version ++ "\n") ++ Manifest.ofLines extra) ∧
    (∀ p ∈ found.external, ∀ q ∈ found.external,
      normalizeName p.name = normalizeName q.name → p.version = q.version) ∧
    ((found.external.map fun p => normalizeName p.name).Nodup ↔
      ∀ d e v w, s.Requires found records d v → s.Requires found records e w →
        normalizeName d.name = normalizeName e.name → d.name = e.name) := by
  intro records found
  have told : added.foldl Index.add (Index.ofRoots site directories).1 = records.foldl Index.add {} := by
    rw [Distribution.ofRoots_index, ← List.foldl_append]
  obtain ⟨filed, -, -, nodup⟩ := filed_of_collect success
  have external : ∀ pin, pin ∈ found.external ↔ ∃ d, s.Requires found records d pin.version ∧ d.name = pin.name :=
    fun pin => filed.mem_external_iff (told ▸ indexed)
  have version : ∀ p ∈ found.external, ∀ q ∈ found.external,
      normalizeName p.name = normalizeName q.name → p.version = q.version := by
    intro p mem q mem' alike
    obtain ⟨x, -, pinned⟩ := (filed.external p).mp mem
    obtain ⟨y, -, pinned'⟩ := (filed.external q).mp mem'
    rw [indexed] at pinned pinned'
    have one := (Index.classify_eq_external_iff.mp pinned).2.2
    have other := (Index.classify_eq_external_iff.mp pinned').2.2
    exact Option.some.inj (one.symm.trans ((Index.versionOf_congr alike).trans other))
  -- A name tells what is pinned under it.
  have tells : ∀ p ∈ found.external, ∀ q ∈ found.external, p.name = q.name → p = q := by
    rintro ⟨name, v⟩ mem ⟨_, w⟩ mem' rfl
    obtain rfl : v = w := version _ mem _ mem' rfl
    rfl
  refine ⟨external, fun extra => ⟨found.sortedExternal, ?_, ?_, ?_⟩, version, ?_⟩
  · exact Pin.sorted_perm found.external
  · have names : (found.external.map (·.name)).Nodup := (List.nodup_map_iff_inj_on nodup).mpr tells
    exact ((Pin.sorted_perm found.external).map (·.name)).nodup_iff.mpr names
  · exact Manifest.render_sorted found.external extra
  · rw [List.nodup_map_iff_inj_on nodup]
    constructor
    · intro once d e v w required required' alike
      have mem : ⟨d.name, v⟩ ∈ found.external := (external ⟨d.name, v⟩).mpr ⟨d, required, rfl⟩
      have mem' : ⟨e.name, w⟩ ∈ found.external := (external ⟨e.name, w⟩).mpr ⟨e, required', rfl⟩
      exact congrArg Pin.name (once _ mem _ mem' alike)
    · intro spelled p mem q mem' alike
      obtain ⟨d, required, name⟩ := (external p).mp mem
      obtain ⟨e, required', name'⟩ := (external q).mp mem'
      refine tells p mem q mem' ?_
      rw [← name, ← name']
      exact spelled d e _ _ required required' (name ▸ name' ▸ alike)

/-! ## A distribution with two names -/

/-- Records of one distribution that spell its name in two ways. -/
def spelledTwice : List Distribution := [⟨"Foo_Bar", some "1", ["foo"]⟩, ⟨"foo-bar", some "2", ["bar"]⟩]

/-- The file of a script. -/
def lone : FileSystem where
  entries := [("main.py", .file "import foo\nimport bar\n".toUTF8 false)]

/-- A script that imports what either record claims. -/
def bothImported : Sources where
  files := lone
  roots := [⟨"/"⟩]
  parse _ := .ok [{ moduleName := "foo", line := 1 }, { moduleName := "bar", line := 2 }]
  classify := (spelledTwice.foldl Index.add (Index.ofRoots lone []).1).classify

/-- The distribution is pinned under either name. -/
theorem spelledTwice_pinned :
    (bothImported.collect ⟨"/main.py"⟩).1 = .ok () ∧
      (bothImported.collect ⟨"/main.py"⟩).2.external = [⟨"Foo_Bar", "1"⟩, ⟨"foo-bar", "1"⟩] ∧
      normalizeName "Foo_Bar" = normalizeName "foo-bar" := by
  obtain ⟨ended, external, alike⟩ : (bothImported.collect ⟨"/main.py"⟩).1.toOption = some () ∧
      (bothImported.collect ⟨"/main.py"⟩).2.external = [⟨"Foo_Bar", "1"⟩, ⟨"foo-bar", "1"⟩] ∧
      normalizeName "Foo_Bar" = normalizeName "foo-bar" := by decide +kernel
  exact ⟨eq_ok_of_toOption ended, external, alike⟩

/-- The second record asks for the version of the first one, and both are asked for. -/
theorem collect_pinned_spelledTwice :
    (bothImported.collect ⟨"/main.py"⟩).1 = .ok () ∧
      ∃ d e, d.name = "Foo_Bar" ∧ bothImported.Requires (bothImported.collect ⟨"/main.py"⟩).2 spelledTwice d "1" ∧
        e.name = "foo-bar" ∧ bothImported.Requires (bothImported.collect ⟨"/main.py"⟩).2 spelledTwice e "1" := by
  obtain ⟨ended, mem, mem'⟩ : (bothImported.collect ⟨"/main.py"⟩).1.toOption = some () ∧
      ⟨"Foo_Bar", "1"⟩ ∈ (bothImported.collect ⟨"/main.py"⟩).2.external ∧
      ⟨"foo-bar", "1"⟩ ∈ (bothImported.collect ⟨"/main.py"⟩).2.external := by decide +kernel
  have success := eq_ok_of_toOption ended
  obtain ⟨external, -⟩ := collect_pinned bothImported ⟨"/main.py"⟩ bothImported.depthLimit lone [] spelledTwice rfl success
  obtain ⟨d, required, name⟩ := (external _).mp mem
  obtain ⟨e, required', name'⟩ := (external _).mp mem'
  exact ⟨success, d, e, name, required, name', required'⟩

end Sources

end PyBundle
