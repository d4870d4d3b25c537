import Mathlib.Data.List.Pairwise
import PyBundle.Proofs.Bundle.Roots
import PyBundle.Proofs.Collect.Place

/-!
# Modules with one destination

A module is copied to its relative path, so modules with the same relative path have one destination. Each of
them stands below the first root where that path leads to a file, whatever name and form it is found under,
and the entry does too, since the first root is its directory. How a relative path is written counts in one
way only: below a root it may be too long where another spelling of it is not. `collect_destinations` says
that modules with one destination are one file unless this is the case, and where no import spells a slash it
never is.
-/

namespace PyBundle.Sources

variable {s : Sources} {entry root root' : Path} {m n : LocalModule}

/-- **The entry stands below its own directory,** if it can be read. -/
theorem standsBelow_entry {others : List Path} {lines : List ImportLine} (absolute : entry.isAbsolute = true)
    (roots : s.roots = entry.parent?.getD ⟨"/"⟩ :: others) (read : s.linesOf (.entry entry) = .ok lines) :
    s.StandsBelow (.entry entry) (entry.parent?.getD ⟨"/"⟩) := by
  have file : s.files.isFile entry = true := isFile_of_linesOf (m := .entry entry) read
  obtain ⟨directory, name, parent, fileName, ends, same, shorter⟩ :=
    Path.exists_parent_join absolute (FileSystem.endsInName_of_isFile file)
  have relativePath : (LocalModule.entry entry).relativePath = ⟨name⟩ := by
    unfold LocalModule.entry
    rw [fileName]
    rfl
  rw [parent, Option.getD_some] at roots ⊢
  refine ⟨⟨[], others, roots, nofun⟩, ?_, by rw [relativePath]; exact same⟩
  rw [relativePath]
  rw [Path.sameAs_comm] at same
  exact FileSystem.isFile_of_sameAs same file ends fun long =>
    FileSystem.not_isTooLong_of_isFile file (Nat.le_trans long shorter)

/-- **Every module that a walk finds stands below a root** when the walk succeeds. Then the entry is a file. -/
theorem exists_standsBelow_of_collect {c : Config} {limit : Nat}
    (search : c.searchRoots s.files = .ok s.roots) (start : Config.absolute s.files c.entryFile = .ok entry)
    (success : (s.collect entry limit).1 = .ok ()) :
    s.files.isFile entry = true ∧
      ∀ m ∈ (s.collect entry limit).2.modules, s.Reachable entry m ∧ ∃ root, s.StandsBelow m root := by
  obtain ⟨-, -, others, roots⟩ := Config.searchRoots_spec search start
  obtain ⟨closed, read⟩ := closed_of_collect success
  obtain ⟨lines, readEntry⟩ := read (.entry entry) ((closed.mem_iff (.entry entry)).mpr .refl)
  refine ⟨isFile_of_linesOf (m := .entry entry) readEntry, fun m mem => ?_⟩
  have reachable : s.Reachable entry m := (closed.mem_iff m).mp mem
  refine ⟨reachable, ?_⟩
  rcases reachable.eq_entry_or_located with rfl | ⟨-, located⟩
  · exact ⟨_, standsBelow_entry (Config.isAbsolute_of_absolute start) roots readEntry⟩
  · exact exists_standsBelow_of_locate located

/-! ## One destination -/

/-- **A module is out of reach of the path of another:** below a root where the one is found, the path of the
other is too long. -/
def OutOfReach (s : Sources) (m n : LocalModule) : Prop :=
  ∃ root ∈ s.roots, (root.join m.relativePath).sameAs m.absolutePath = true ∧
    (root.join n.relativePath).IsTooLong

/-- Of two places in a list, they are one or one is before the other. -/
theorem eq_or_mem_of_splits {α : Type} {xs before after before' after' : List α} {x y : α}
    (first : xs = before ++ x :: after) (second : xs = before' ++ y :: after') :
    x = y ∨ x ∈ before' ∨ y ∈ before := by
  rw [first] at second
  rcases List.append_eq_append_iff.mp second with ⟨between, rfl, rest⟩ | ⟨between, rfl, rest⟩
  · cases between with
    | nil => exact .inl (List.cons.inj rest).1
    | cons z between =>
      rw [(List.cons.inj rest).1]
      exact .inr (.inl (List.mem_append_right _ List.mem_cons_self))
  · cases between with
    | nil => exact .inl (List.cons.inj rest).1.symm
    | cons z between =>
      rw [(List.cons.inj rest).1]
      exact .inr (.inr (List.mem_append_right _ List.mem_cons_self))

/-- A path of one module that is within the reach of another leads to its file. -/
theorem StandsBelow.isFile_join (stands : s.StandsBelow m root) (stands' : s.StandsBelow n root')
    (absolute : ∀ root ∈ s.roots, root.isAbsolute = true)
    (same : m.relativePath.sameAs n.relativePath = true) (reach : ¬ s.OutOfReach m n) :
    s.files.isFile (root.join n.relativePath) = true := by
  have ends : (root'.join n.relativePath).EndsInName := FileSystem.endsInName_of_isFile stands'.file
  rw [Path.endsInName_join (absolute _ stands'.mem)] at ends
  exact FileSystem.isFile_of_sameAs (Path.join_sameAs_join (absolute _ stands.mem) same) stands.file
    ((Path.endsInName_join (absolute _ stands.mem)).mpr ends)
    fun long => reach ⟨root, stands.mem, stands.path, long⟩

/-- Modules that are one file are within reach of each other. -/
theorem StandsBelow.not_outOfReach (stands : s.StandsBelow n root)
    (absolute : ∀ root ∈ s.roots, root.isAbsolute = true)
    (distinct : s.roots.Pairwise fun p q => p.sameAs q = false)
    (same : m.relativePath.sameAs n.relativePath = true)
    (oneFile : m.absolutePath.sameAs n.absolutePath = true) : ¬ s.OutOfReach m n := by
  rintro ⟨other, isRoot, path, long⟩
  refine FileSystem.not_isTooLong_of_isFile stands.file ?_
  cases relative : n.relativePath.isAbsolute with
  | true =>
    rw [Path.join_of_isAbsolute relative] at long ⊢
    exact long
  | false =>
    -- Both roots lead to the file by the same steps, so they are one.
    have joined : (other.join n.relativePath).sameAs (root.join n.relativePath) = true := by
      have path' : n.absolutePath.sameAs (root.join n.relativePath) = true := by
        rw [Path.sameAs_comm]
        exact stands.path
      have there := Path.join_sameAs_join (absolute _ isRoot) same
      rw [Path.sameAs_comm] at there
      exact Path.sameAs_trans (Path.sameAs_trans there path) (Path.sameAs_trans oneFile path')
    have sameRoot := Path.sameAs_of_join_sameAs (absolute _ isRoot) (absolute _ stands.mem) relative joined
    have equal : other = root := by
      refine Classical.byContradiction fun differ => ?_
      have symmetric : Std.Symm fun p q : Path => p.sameAs q = false :=
        ⟨fun p q apart => by rwa [Path.sameAs_comm]⟩
      have apart := distinct.forall isRoot stands.mem differ
      rw [sameRoot] at apart
      cases apart
    rwa [equal] at long

/-- **Modules with one destination are one file if and only if each is within reach of the other.** -/
theorem StandsBelow.sameAs_iff (stands : s.StandsBelow m root) (stands' : s.StandsBelow n root')
    (absolute : ∀ root ∈ s.roots, root.isAbsolute = true)
    (distinct : s.roots.Pairwise fun p q => p.sameAs q = false)
    (same : m.relativePath.sameAs n.relativePath = true) :
    m.absolutePath.sameAs n.absolutePath = true ↔ ¬ s.OutOfReach m n ∧ ¬ s.OutOfReach n m := by
  have same' : n.relativePath.sameAs m.relativePath = true := by rwa [Path.sameAs_comm]
  constructor
  · intro oneFile
    refine ⟨stands'.not_outOfReach absolute distinct same oneFile,
      stands.not_outOfReach absolute distinct same' ?_⟩
    rwa [Path.sameAs_comm]
  · rintro ⟨reach, reach'⟩
    obtain ⟨before, after, split, earlier⟩ := stands.first
    obtain ⟨before', after', split', earlier'⟩ := stands'.first
    rcases eq_or_mem_of_splits split split' with rfl | isEarlier | isEarlier
    · have path := stands.path
      rw [Path.sameAs_comm] at path
      exact Path.sameAs_trans path
        (Path.sameAs_trans (Path.join_sameAs_join (absolute _ stands.mem) same) stands'.path)
    · have file := stands.isFile_join stands' absolute same reach
      rw [earlier' _ isEarlier] at file
      cases file
    · have file := stands'.isFile_join stands absolute same' reach'
      rw [earlier _ isEarlier] at file
      cases file

/-- Modules whose relative paths are written in the same way are within reach of each other. -/
theorem StandsBelow.sameAs_of_relativePath_eq (stands : s.StandsBelow m root) (stands' : s.StandsBelow n root')
    (absolute : ∀ root ∈ s.roots, root.isAbsolute = true)
    (distinct : s.roots.Pairwise fun p q => p.sameAs q = false)
    (written : m.relativePath = n.relativePath) : m.absolutePath.sameAs n.absolutePath = true := by
  have reach : ¬ s.OutOfReach m m :=
    stands.not_outOfReach absolute distinct (Path.sameAs_refl _) (Path.sameAs_refl _)
  have reach' : ¬ s.OutOfReach n n :=
    stands'.not_outOfReach absolute distinct (Path.sameAs_refl _) (Path.sameAs_refl _)
  refine (stands.sameAs_iff stands' absolute distinct ?_).mpr ⟨?_, ?_⟩
  · rw [written]
    exact Path.sameAs_refl _
  · unfold OutOfReach at reach ⊢
    rwa [← written]
  · unfold OutOfReach at reach' ⊢
    rwa [written]

/-- **Where no import spells a slash, modules with one destination are one file.** The names on the way to
them are the same then. -/
theorem collect_destinations_of_slashFree {c : Config} {limit : Nat}
    (search : c.searchRoots s.files = .ok s.roots) (start : Config.absolute s.files c.entryFile = .ok entry)
    (success : (s.collect entry limit).1 = .ok ())
    (spelled : ∀ m, s.Reachable entry m → ∀ l, s.HasLine m l → l.IsSlashFree)
    (hm : m ∈ (s.collect entry limit).2.modules) (hn : n ∈ (s.collect entry limit).2.modules)
    (same : m.relativePath.sameAs n.relativePath = true) :
    m.absolutePath.sameAs n.absolutePath = true := by
  obtain ⟨absolute, distinct, -⟩ := Config.searchRoots_spec search start
  obtain ⟨file, stand⟩ := exists_standsBelow_of_collect search start success
  obtain ⟨reachable, root, stands⟩ := stand m hm
  obtain ⟨reachable', root', stands'⟩ := stand n hn
  obtain ⟨names, some, proper, path⟩ := reachable.exists_fileNames spelled file
  obtain ⟨names', some', proper', path'⟩ := reachable'.exists_fileNames spelled file
  refine stands.sameAs_of_relativePath_eq stands' absolute distinct ?_
  rw [path, path'] at same ⊢
  rw [Path.eq_of_ofNames_sameAs proper proper' some some' same]

/-- **Modules with one destination are one file,** unless the path of one of them is too long where the other
one is found. -/
theorem collect_destinations (s : Sources) (c : Config) (entry : Path) (limit : Nat)
    (search : c.searchRoots s.files = .ok s.roots)
    (start : Config.absolute s.files c.entryFile = .ok entry)
    (success : (s.collect entry limit).1 = .ok ()) :
    ∀ m ∈ (s.collect entry limit).2.modules, ∀ n ∈ (s.collect entry limit).2.modules,
      m.relativePath.sameAs n.relativePath = true →
        (m.absolutePath.sameAs n.absolutePath = true ↔ ¬ s.OutOfReach m n ∧ ¬ s.OutOfReach n m) := by
  obtain ⟨absolute, distinct, -⟩ := Config.searchRoots_spec search start
  obtain ⟨-, stand⟩ := exists_standsBelow_of_collect search start success
  intro m hm n hn same
  obtain ⟨-, root, stands⟩ := stand m hm
  obtain ⟨-, root', stands'⟩ := stand n hn
  exact stands.sameAs_iff stands' absolute distinct same

/-- A program that imports one file under two names: as the package `x`, and as a module in it. -/
def twoNames : Sources where
  files := {
    entries := [
      ("main.py", .file "import x, x.__init__\n".toUTF8 false),
      ("x", .directory [("__init__.py", .file "".toUTF8 false)])] }
  roots := [⟨"/"⟩, ⟨"/x"⟩]
  parse source := if source = "" then .ok [] else .ok [{ moduleName := "x" }, { moduleName := "x.__init__" }]
  classify _ := .unknown

theorem collect_destinations_twoNames :
    let c : Config := { entryFile := ⟨"/main.py"⟩, exportDirectory := ⟨"/out"⟩, searchPaths := [⟨"/x"⟩] }
    let m : LocalModule := ⟨⟨"/x/__init__.py"⟩, ⟨"x/__init__.py"⟩, true, "x"⟩
    let n : LocalModule := ⟨⟨"/x/__init__.py"⟩, ⟨"x/__init__.py"⟩, false, "x.__init__"⟩
    c.searchRoots twoNames.files = .ok twoNames.roots ∧
      Config.absolute twoNames.files c.entryFile = .ok ⟨"/main.py"⟩ ∧
      (twoNames.collect ⟨"/main.py"⟩).1 = .ok () ∧
      m ∈ (twoNames.collect ⟨"/main.py"⟩).2.modules ∧ n ∈ (twoNames.collect ⟨"/main.py"⟩).2.modules ∧
      m.relativePath.sameAs n.relativePath = true ∧ ¬ twoNames.OutOfReach m n := by
  intro c m n
  have search : c.searchRoots twoNames.files = .ok twoNames.roots := eq_ok_of_toOption (by decide +kernel)
  have start : Config.absolute twoNames.files c.entryFile = .ok ⟨"/main.py"⟩ :=
    eq_ok_of_toOption (by decide +kernel)
  obtain ⟨ended, hm, hn⟩ : (twoNames.collect ⟨"/main.py"⟩).1.toOption = some () ∧
      m ∈ (twoNames.collect ⟨"/main.py"⟩).2.modules ∧ n ∈ (twoNames.collect ⟨"/main.py"⟩).2.modules := by
    decide +kernel
  have success : (twoNames.collect ⟨"/main.py"⟩).1 = .ok () := eq_ok_of_toOption ended
  have same : m.relativePath.sameAs n.relativePath = true := by decide
  have oneFile : m.absolutePath.sameAs n.absolutePath = true := by decide
  have oneDestination := collect_destinations twoNames c ⟨"/main.py"⟩ twoNames.depthLimit search start success
    m hm n hn same
  exact ⟨search, start, success, hm, hn, same, (oneDestination.mp oneFile).1⟩

end PyBundle.Sources
