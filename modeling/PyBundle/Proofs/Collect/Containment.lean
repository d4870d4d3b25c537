import PyBundle.Proofs.Bundle.Frame
import PyBundle.Proofs.Collect.Shape

/-!
# Which modules stay in the bundle

A module is copied to its relative path, so it stays in the bundle if that path is relative. The path is made by pushing
the segments of a name, and a segment that starts with a slash replaces all that stands before it. A name is taken from
the source as it is written, with the comments between its segments, so there are such segments.

`collect_contained` says that these are the only way out: the relative path of any other module has names alone, and it
leads to its file from a root. A module with such a segment has its own file for a destination, which a copy empties.
-/

namespace PyBundle

namespace Path

variable {p q : Path} {names : List String}

/-- **A joined path starts at the root if one of its parts does.** -/
theorem isAbsolute_join_eq (p q : Path) : (p.join q).isAbsolute = (p.isAbsolute || q.isAbsolute) := by
  cases absolute : q.isAbsolute with
  | true => rw [join_of_isAbsolute absolute, absolute, Bool.or_true]
  | false =>
    rw [Bool.or_false]
    cases written : p.isEmpty with
    | true =>
      have none : p.text = "" := eq_of_beq written
      rw [join_of_isEmpty written, absolute]
      unfold isAbsolute
      rw [none]
      rfl
    | false => exact isAbsolute_join_of_written written absolute

theorem isAbsolute_pushNames (p : Path) (names : List String) :
    (names.foldl push p).isAbsolute = (p.isAbsolute || names.any fun name => isAbsolute ⟨name⟩) := by
  induction names generalizing p with
  | nil => rw [List.foldl_nil, List.any_nil, Bool.or_false]
  | cons name names ih =>
    have first : (p.push name).isAbsolute = (p.isAbsolute || isAbsolute ⟨name⟩) := isAbsolute_join_eq p ⟨name⟩
    rw [List.foldl_cons, ih, first, List.any_cons, Bool.or_assoc]

/-- A name starts with a slash if and only if it does with a suffix behind it. -/
theorem isAbsolute_suffix (name : String) : isAbsolute ⟨name ++ ".py"⟩ = isAbsolute ⟨name⟩ := by
  unfold isAbsolute
  dsimp only
  rw [String.toList_append]
  cases name.toList with
  | nil => rfl
  | cons c cs => rfl

/-- **The components of a path that is followed by names** are followed by them. -/
theorem components_join (plain : ∀ c ∈ q.components, ∃ name, c = .name name) :
    (p.join q).components = p.components ++ q.components := by
  obtain ⟨relative, -⟩ := exists_names plain
  cases written : p.isEmpty with
  | true =>
    have none : p = ⟨""⟩ := congrArg Path.mk (eq_of_beq written : p.text = "")
    rw [join_of_isEmpty written, none]
    rfl
  | false =>
    rw [components_eq (p.join q), components_eq p, components_eq q, lead_join_of_written written relative,
      steps_join written relative, lead_eq_nil_of_names plain, List.nil_append, List.append_assoc]

end Path

/-- **The path of a module starts at the root if and only if a segment of its name does.** -/
theorem LocalModule.isAbsolute_candidatePath {segs : List String} (some : segs ≠ []) (isPackage : Bool) :
    (candidatePath segs isPackage).isAbsolute = segs.any fun segment => Path.isAbsolute ⟨segment⟩ := by
  obtain ⟨before, last, rfl⟩ := (List.eq_nil_or_concat segs).resolve_left some
  have relative : Path.isAbsolute ⟨"__init__.py"⟩ = false := by decide
  have nowhere : Path.isAbsolute ⟨""⟩ = false := by decide
  unfold candidatePath
  rw [List.concat_eq_append, List.getLast?_concat, List.dropLast_concat, List.any_append, List.any_cons,
    List.any_nil, Bool.or_false]
  dsimp only
  split <;>
    simp only [Path.push, Path.isAbsolute_join_eq, Path.isAbsolute_pushNames, Path.isAbsolute_suffix, relative,
      nowhere, Bool.or_false, Bool.false_or]

/-! ## What is found -/

namespace Sources

variable {s : Sources} {entry : Path} {m : LocalModule}

/-- **A module is contained:** its relative path has names alone, of which there are some, and it leads to the file of
the module from a root, or from the directory of the entry. -/
structure IsContained (s : Sources) (entry : Path) (m : LocalModule) : Prop where
  some : m.relativePath.components ≠ []
  names : ∀ c ∈ m.relativePath.components, ∃ name, c = .name name
  below : (∃ root ∈ s.roots, m.absolutePath.components = root.components ++ m.relativePath.components) ∨
    m.absolutePath = entry ∧ entry.components = entry.components.dropLast ++ m.relativePath.components

/-- The components of an absolute path are not names alone. -/
theorem IsContained.relative (contained : s.IsContained entry m) : m.relativePath.isAbsolute = false :=
  (Path.exists_names contained.names).1

/-- **The entry is contained,** if it is a file. -/
theorem isContained_entry (file : s.files.isFile entry = true) : s.IsContained entry (.entry entry) := by
  obtain ⟨name, fileName, -, -, components⟩ := exists_entry_name file
  refine ⟨by rw [components]; exact List.cons_ne_nil _ _, fun c mem => ?_, .inr ⟨rfl, ?_⟩⟩
  · rw [components] at mem
    exact ⟨name, List.mem_singleton.mp mem⟩
  · unfold Path.fileName? at fileName
    obtain ⟨c, last, named⟩ := Option.bind_eq_some_iff.mp fileName
    have isName : c = .name name := by
      cases c with
      | name other => exact congrArg _ (Option.some.inj named)
      | root | here | up => cases named
    rw [components, ← isName]
    exact (List.dropLast_append_getLast? c last).symm

/-- The relative path of a located module starts at the root if and only if a segment of its name does. -/
theorem isAbsolute_of_located (located : LocalModule.locate s.files s.roots m.moduleName = some m) :
    m.relativePath.isAbsolute =
      (DottedName.segments m.moduleName).any fun segment => Path.isAbsolute ⟨segment⟩ := by
  obtain ⟨-, _, _, _, -, -, isPackage, -, -, below⟩ := LocalModule.locate_eq_some.mp located
  have relative : m.relativePath = LocalModule.candidatePath (DottedName.segments m.moduleName) isPackage := by
    rw [below]
    rfl
  rw [relative, LocalModule.isAbsolute_candidatePath (DottedName.segments_ne_nil _)]

/-- **The file of a located module is at its relative path below a root.** -/
theorem exists_root_of_located (located : LocalModule.locate s.files s.roots m.moduleName = some m) :
    ∃ root ∈ s.roots, m.absolutePath = root.join m.relativePath := by
  obtain ⟨-, before, root, after, split, -, isPackage, -, -, below⟩ := LocalModule.locate_eq_some.mp located
  refine ⟨root, by simp [split], ?_⟩
  rw [below]
  rfl

/-- **A module that is reached is contained if and only if no segment of its name starts with a slash.** -/
theorem Reachable.isContained_iff (file : s.files.isFile entry = true) (reach : s.Reachable entry m) :
    s.IsContained entry m ↔ ∀ segment ∈ DottedName.segments m.moduleName, Path.isAbsolute ⟨segment⟩ = false := by
  rcases reach.eq_entry_or_located with rfl | ⟨-, located⟩
  · exact iff_of_true (isContained_entry file) fun segment mem => by
      rw [List.mem_singleton.mp mem]
      decide
  · have absolute := isAbsolute_of_located located
    constructor
    · intro contained
      rw [contained.relative] at absolute
      exact fun segment mem => Bool.eq_false_iff.mpr (List.any_eq_false.mp absolute.symm segment mem)
    · intro free
      have relative : m.relativePath.isAbsolute = false := by
        rw [absolute, List.any_eq_false]
        exact fun segment mem => Bool.eq_false_iff.mp (free segment mem)
      obtain ⟨components, -, some⟩ := reach.exists_way file relative
      have plain : ∀ c ∈ m.relativePath.components, ∃ name, c = .name name := by
        intro c mem
        rw [components] at mem
        obtain ⟨name, -, rfl⟩ := List.mem_map.mp mem
        exact ⟨name, rfl⟩
      obtain ⟨root, isRoot, joined⟩ := exists_root_of_located located
      refine ⟨?_, plain, .inl ⟨root, isRoot, ?_⟩⟩
      · rw [components]
        simpa using some
      · rw [joined, Path.components_join plain]

/-- **A module that is not contained has its own file for a relative path.** -/
theorem Reachable.relativePath_eq (file : s.files.isFile entry = true) (reach : s.Reachable entry m)
    (outside : ¬ s.IsContained entry m) :
    m.relativePath.isAbsolute = true ∧ m.relativePath = m.absolutePath := by
  rcases reach.eq_entry_or_located with rfl | ⟨-, located⟩
  · exact absurd (isContained_entry file) outside
  · have absolute : m.relativePath.isAbsolute = true := by
      rw [isAbsolute_of_located located, List.any_eq_true]
      rw [reach.isContained_iff file] at outside
      push Not at outside
      obtain ⟨segment, mem, starts⟩ := outside
      exact ⟨segment, mem, Bool.not_eq_false _ |>.mp starts⟩
    obtain ⟨root, -, joined⟩ := exists_root_of_located located
    exact ⟨absolute, by rw [joined, Path.join_of_isAbsolute absolute]⟩

end Sources

/-! ## What is written -/

namespace Bundle

variable {ground fs : FileSystem} {b : Bundle} {place : Place} {names : List String} {q : Path} {m : LocalModule}
  {modules : List LocalModule} {t u : Session}

/-- **No file outside a directory has come or changed** since some file system, and all that was there still is. -/
def Confined (ground : FileSystem) (place : Place) (fs : FileSystem) : Prop :=
  Grown ground place fs ∧
    ∀ q, ¬ place <+: q → ∀ content executable, fs.kind? q = some (.file content executable) →
      ground.kind? q = some (.file content executable)

theorem confined_keptByDirectories (ground : FileSystem) (place : Place) :
    FileSystem.KeptByDirectories (Confined ground place) := by
  intro fs directory name confined holds missing isName
  refine ⟨Grown.keptByDirectories ground place fs directory name confined.1 holds missing isName,
    fun q aside content executable entry => ?_⟩
  rw [FileSystem.kind?_put_directory holds missing] at entry
  split at entry
  · cases entry
  · exact confined.2 q aside content executable entry

/-- Outside the directory there are the files that were there. -/
theorem Confined.kind?_iff (confined : Confined ground place fs) {q : Place} (aside : ¬ place <+: q)
    (content : ByteArray) (executable : Bool) :
    fs.kind? q = some (.file content executable) ↔ ground.kind? q = some (.file content executable) :=
  ⟨confined.2 q aside content executable, fun entry => confined.1.more.kind entry fun _ _ _ => aside⟩

/-- **It stays so with all that is written below the directory.** -/
theorem keptBelow_confined (start : Opens ground b.directory place) : KeptBelow b (Confined ground place) where
  create _ := keeps_create (confined_keptByDirectories ground place) _
  createParent _ := keeps_createParent (confined_keptByDirectories ground place) _
  copyFile onward _ := keeps_copyFile fun _ _ before copied => by
    obtain ⟨from_, place', content, executable, -, -, writes, rfl⟩ := FileSystem.copy_eq_ok copied
    obtain ⟨grown, rfl⟩ := before.1.put start onward writes
    refine ⟨grown, fun q aside content executable entry => ?_⟩
    rw [writes.kind?_put, if_neg] at entry
    · exact before.2 q aside content executable entry
    · rintro rfl
      exact aside (List.prefix_append _ _)

/-- **Modules whose relative paths have names alone leave all files as they are outside the directory,** whether their
copies succeed or fail. -/
theorem confined_modules (start : Opens t.files b.directory place)
    (plain : ∀ m ∈ modules, ∀ c ∈ m.relativePath.components, ∃ name, c = .name name) :
    Confined t.files place ((modules.forM b.copyModule).outcome t).2.files :=
  (Step.keeps_forM fun m mem => (keptBelow_confined start).copyModule (plain m mem)).left
    ⟨start.grown, fun _ _ _ _ => id⟩

/-- **A module whose relative path is its own file is emptied** when it is copied. -/
theorem read_of_copyModule (absolute : m.relativePath.isAbsolute = true) (own : m.relativePath = m.absolutePath)
    (run : (b.copyModule m).Runs t () u) : u.files.read m.absolutePath = .ok ByteArray.empty := by
  unfold copyModule copyFile at run
  rw [Path.join_of_isAbsolute absolute, own] at run
  obtain ⟨_, v, -, copies⟩ := Step.runs_bind.mp run
  obtain ⟨_, w, copied, note⟩ := Step.runs_bind.mp copies
  obtain ⟨fs, settled, rfl⟩ := Step.runs_change.mp copied
  have files : u.files = fs := by
    rw [Step.runs_note.mp note]
  rw [files]
  cases copy : v.files.copy m.absolutePath m.absolutePath with
  | error fault =>
    rw [copy] at settled
    cases settled
  | ok fs' =>
    rw [copy] at settled
    cases settled
    exact FileSystem.read_of_copy_self copy

end Bundle

/-! ## The walk -/

namespace Sources

/-- **What a walk finds is contained, unless a segment of its name starts with a slash.** Where no import spells such a
segment there is none. Modules that are contained are written inside the directory of the bundle, and a module that is
not is its own destination: a copy that succeeds leaves its source file empty. -/
theorem collect_contained (s : Sources) (entry : Path) (limit : Nat)
    (success : (s.collect entry limit).1 = .ok ()) :
    (∀ m ∈ (s.collect entry limit).2.modules,
      (s.IsContained entry m ↔
        ∀ segment ∈ DottedName.segments m.moduleName, Path.isAbsolute ⟨segment⟩ = false) ∧
      (¬ s.IsContained entry m → m.relativePath = m.absolutePath ∧
        ∀ (b : Bundle) (t u : Session), (b.copyModule m).Runs t () u →
          u.files.read m.absolutePath = .ok ByteArray.empty)) ∧
    ((∀ m ∈ (s.collect entry limit).2.modules, ∀ l, s.HasLine m l →
        l.Spells fun segment => Path.isAbsolute ⟨segment⟩ = false) →
      ∀ m ∈ (s.collect entry limit).2.modules, s.IsContained entry m) ∧
    ((∀ m ∈ (s.collect entry limit).2.modules, s.IsContained entry m) →
      ∀ (b : Bundle) (t : Session) (place : Place), Bundle.Opens t.files b.directory place →
        ∀ q, ¬ place <+: q → ∀ content executable,
          (((s.collect entry limit).2.modules.forM b.copyModule).outcome t).2.files.kind? q =
              some (.file content executable) ↔
            t.files.kind? q = some (.file content executable)) := by
  obtain ⟨closed, read⟩ := closed_of_collect success
  obtain ⟨lines, readEntry⟩ := read (.entry entry) ((closed.mem_iff (.entry entry)).mpr .refl)
  have file : s.files.isFile entry = true := isFile_of_linesOf (m := .entry entry) readEntry
  have reachable := fun m mem => (closed.mem_iff m).mp mem
  refine ⟨fun m mem => ⟨(reachable m mem).isContained_iff file, fun outside => ?_⟩, fun spelled m mem => ?_,
    fun contained b t place start q aside content executable => ?_⟩
  · obtain ⟨absolute, own⟩ := (reachable m mem).relativePath_eq file outside
    exact ⟨own, fun b t u run => Bundle.read_of_copyModule absolute own run⟩
  · rw [(reachable m mem).isContained_iff file]
    exact (reachable m mem).each (by decide) fun m reach => spelled m ((closed.mem_iff m).mpr reach)
  · exact (Bundle.confined_modules start fun m mem => (contained m mem).names).kind?_iff aside content executable

/-- A program with a comment inside a name: the dot and the slash in the comment make up a segment. -/
def slashInComment : Sources where
  files := {
    entries := [
      ("main.py", .file "from p import (a #./b\n .c)\n".toUTF8 false),
      ("b\n ", .directory [("c.py", .file "secret = 1\n".toUTF8 false)])] }
  roots := [⟨"/"⟩]
  parse source :=
    if source = "secret = 1\n" then .ok [] else .ok [{ moduleName := "p", items := ["a #./b\n .c"], line := 1 }]
  classify _ := .unknown

/-- The module that this name leads to. -/
def slashModule : LocalModule := ⟨⟨"/b\n /c.py"⟩, ⟨"/b\n /c.py"⟩, false, "p.a #./b\n .c"⟩

/-- The relative path of the module starts at the root. -/
theorem slashInComment_outside :
    (slashInComment.collect ⟨"/main.py"⟩).1 = .ok () ∧
      slashModule ∈ (slashInComment.collect ⟨"/main.py"⟩).2.modules ∧
      slashModule.relativePath.isAbsolute = true ∧ ¬ slashInComment.IsContained ⟨"/main.py"⟩ slashModule := by
  obtain ⟨ended, mem, absolute⟩ : (slashInComment.collect ⟨"/main.py"⟩).1.toOption = some () ∧
      slashModule ∈ (slashInComment.collect ⟨"/main.py"⟩).2.modules ∧
      slashModule.relativePath.isAbsolute = true := by decide +kernel
  refine ⟨eq_ok_of_toOption ended, mem, absolute, fun contained => ?_⟩
  rw [contained.relative] at absolute
  cases absolute

/-- Copying the module succeeds and empties its source. -/
theorem collect_contained_slash :
    let t : Session := { files := slashInComment.files }
    let b : Bundle := ⟨⟨"/out"⟩, fun _ => false⟩
    (slashInComment.collect ⟨"/main.py"⟩).1 = .ok () ∧
      slashModule ∈ (slashInComment.collect ⟨"/main.py"⟩).2.modules ∧
      ¬ slashInComment.IsContained ⟨"/main.py"⟩ slashModule ∧
      (b.copyModule slashModule).Runs t () ((b.copyModule slashModule).outcome t).2 ∧
      ((b.copyModule slashModule).outcome t).2.files.read slashModule.absolutePath = .ok ByteArray.empty := by
  intro t b
  obtain ⟨ended, mem, segment, copied⟩ : (slashInComment.collect ⟨"/main.py"⟩).1.toOption = some () ∧
      slashModule ∈ (slashInComment.collect ⟨"/main.py"⟩).2.modules ∧
      "/b\n " ∈ DottedName.segments slashModule.moduleName ∧
      ((b.copyModule slashModule).outcome t).1.toOption = some () := by decide +kernel
  have success : (slashInComment.collect ⟨"/main.py"⟩).1 = .ok () := eq_ok_of_toOption ended
  obtain ⟨exactly, emptied⟩ := (collect_contained slashInComment ⟨"/main.py"⟩ slashInComment.depthLimit success).1 _ mem
  have outside : ¬ slashInComment.IsContained ⟨"/main.py"⟩ slashModule := fun contained =>
    absurd (exactly.mp contained _ segment) (by decide)
  have run := Step.runs_of_toOption copied
  exact ⟨success, mem, outside, run, (emptied outside).2 b t _ run⟩

end Sources

end PyBundle
