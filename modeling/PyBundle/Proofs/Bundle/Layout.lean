import PyBundle.Proofs.Bundle.Frame
import PyBundle.Proofs.Collect.Shape
import PyBundle.Proofs.FileSystem.Progress

/-!
# Modules beside each other in a bundle

Modules are copied into an empty directory one after another. Nothing is in the way of a copy as long as no relative
path leads through another one, because then each one finds directories on its way, or nothing (`Receives`). The
relative paths of located modules are like that, and only the entry may be in the way of modules (`collect_layout`): a
script without a suffix that imports a package of its own name cannot be bundled with it (`collect_layout_clash`).
-/

namespace PyBundle

open FileSystem (KeptByDirectories)

namespace Bundle

variable {ground fs fs' : FileSystem} {place : Place} {b : Bundle} {s t : Session} {m : LocalModule}
  {modules todo : List LocalModule}

/-- An empty directory has no links below it. -/
theorem opens_of_leadsToEmpty {p : Path} (empty : fs.LeadsToEmpty p place) : Opens fs p place := by
  refine ⟨empty.found, empty.directory, fun q below target entry => ?_⟩
  cases empty.eq_directory below entry

/-! ## What copies leave -/

/-- **The source of a module** is a file outside the bundle. -/
def HasSource (ground : FileSystem) (place : Place) (m : LocalModule) : Prop :=
  ∃ source content executable, ground.place m.absolutePath = .ok source ∧ ¬ place <+: source ∧
    ground.kind? source = some (.file content executable)

/-- **A place is filled with modules:** each of them is a file there, and all files there have the bytes of the source
of such a module. -/
structure Filled (ground : FileSystem) (place : Place) (modules : List LocalModule) (fs : FileSystem) : Prop where
  grown : Grown ground place fs
  each : ∀ m ∈ modules, ∃ content executable, fs.kind? (place ++ m.relativePath.way) = some (.file content executable)
  only : ∀ q content executable, place <+: q → fs.kind? q = some (.file content executable) →
    ∃ m ∈ modules, q = place ++ m.relativePath.way ∧
      ∃ source, ground.place m.absolutePath = .ok source ∧ ground.kind? source = some (.file content executable)

/-- Without files a place is filled with no modules. -/
theorem filled_nil (start : Opens ground b.directory place)
    (bare : ∀ q content executable, place <+: q → ground.kind? q ≠ some (.file content executable)) :
    Filled ground place [] ground :=
  ⟨start.grown, nofun, fun q content executable below entry => absurd entry (bare q content executable below)⟩

theorem filled_keptByDirectories (ground : FileSystem) (place : Place) (modules : List LocalModule) :
    KeptByDirectories (Filled ground place modules) := by
  intro fs directory name filled holds missing isName
  have more : fs.Within (fs.put (directory ++ [name]) (.directory [])) := FileSystem.within_put missing
  refine ⟨Grown.keptByDirectories ground place fs directory name filled.grown holds missing isName,
    fun m mem => ?_, fun q content executable below entry => ?_⟩
  · obtain ⟨content, executable, entry⟩ := filled.each m mem
    exact ⟨content, executable, more.kind entry⟩
  · rw [FileSystem.kind?_put_directory holds missing] at entry
    split at entry
    · cases entry
    · exact filled.only q content executable below entry

/-- **The source of one module more** is put at its path. -/
theorem Filled.put {target : Path} {place' source : Place} {content : ByteArray} {executable : Bool}
    (filled : Filled ground place modules fs) (start : Opens ground b.directory place)
    (onward : b.directory.GoesOn m.relativePath.way target) (writes : fs.Writes target place')
    (located : ground.place m.absolutePath = .ok source)
    (entry : ground.kind? source = some (.file content executable)) :
    Filled ground place (modules ++ [m]) (fs.put place' (.file content executable)) := by
  obtain ⟨grown, rfl⟩ : Grown ground place (fs.put place' (.file content executable)) ∧
      place' = place ++ m.relativePath.way := filled.grown.put start onward writes
  refine ⟨grown, fun n mem => ?_, fun q content' executable' below entry' => ?_⟩
  · rw [writes.kind?_put]
    split
    · exact ⟨content, executable, rfl⟩
    · rename_i other
      rcases List.mem_append.mp mem with before | last
      · exact filled.each n before
      · exact absurd (by rw [List.mem_singleton.mp last]) other
  · rw [writes.kind?_put] at entry'
    split at entry'
    · rename_i here
      cases entry'
      exact ⟨m, by simp, here, source, located, entry⟩
    · obtain ⟨n, mem, rest⟩ := filled.only q content' executable' below entry'
      exact ⟨n, List.mem_append_left _ mem, rest⟩

/-- **A copy that comes to its end** has made the directories on its way, and then it has copied its file. -/
theorem exists_of_runs_copyModule (run : (b.copyModule m).Runs s () t) :
    ∃ s', (createParent (b.directory.join m.relativePath)).Runs s () s' ∧
      s'.files.copy m.absolutePath (b.directory.join m.relativePath) = .ok t.files := by
  unfold Bundle.copyModule at run
  obtain ⟨⟨⟩, s₁, made, run⟩ := Step.runs_bind.mp run
  obtain ⟨⟨⟩, s₂, copies, noted⟩ := Step.runs_bind.mp run
  cases Step.runs_note.mp noted
  obtain ⟨fs, settled, rfl⟩ := Step.runs_change.mp copies
  refine ⟨s₁, made, ?_⟩
  unfold FileSystem.settle at settled
  split at settled
  · rename_i copied
    cases settled
    exact copied
  · cases settled

/-- **A module that is copied** is there then, with the bytes of its source. -/
theorem Filled.copyModule (filled : Filled ground place modules s.files) (start : Opens ground b.directory place)
    (onward : b.directory.GoesOn m.relativePath.way (b.directory.join m.relativePath))
    (hasSource : HasSource ground place m) (run : (b.copyModule m).Runs s () t) :
    Filled ground place (modules ++ [m]) t.files := by
  obtain ⟨source, content, executable, located, outside, entry⟩ := hasSource
  obtain ⟨s', made, copied⟩ := exists_of_runs_copyModule run
  have filled' : Filled ground place modules s'.files := by
    have keeps := keeps_createParent (filled_keptByDirectories ground place modules) (b.directory.join m.relativePath)
    have kept := keeps.left filled
    rwa [show (createParent _).outcome s = _ from made] at kept
  obtain ⟨source', place', content', executable', located', entry', writes, put⟩ := FileSystem.copy_eq_ok copied
  -- The source is where it has been, because it is outside.
  cases (filled'.grown.more.place_eq located fun _ _ _ => outside).symm.trans located'
  cases (filled'.grown.more.kind entry fun _ _ _ => outside).symm.trans entry'
  have other : place' ≠ source := by
    rintro rfl
    obtain ⟨-, rfl⟩ : Grown ground place (s'.files.put place' (.file content executable)) ∧
        place' = place ++ m.relativePath.way := filled'.grown.put start onward writes
    exact outside (List.prefix_append _ _)
  rw [put, if_neg other]
  exact filled'.put start onward writes located entry

/-- **Modules that are copied** are all there then, with the bytes of their sources. -/
theorem Filled.forM (filled : Filled ground place modules s.files) (start : Opens ground b.directory place)
    (onward : ∀ m ∈ todo, b.directory.GoesOn m.relativePath.way (b.directory.join m.relativePath))
    (sources : ∀ m ∈ todo, HasSource ground place m) (run : (todo.forM b.copyModule).Runs s () t) :
    Filled ground place (modules ++ todo) t.files := by
  induction todo generalizing s modules with
  | nil =>
    cases Step.runs_forM_nil.mp run
    rwa [List.append_nil]
  | cons m todo ih =>
    obtain ⟨u, first, rest⟩ := Step.runs_forM_cons.mp run
    obtain ⟨onward', others⟩ := List.forall_mem_cons.mp onward
    obtain ⟨hasSource, sources'⟩ := List.forall_mem_cons.mp sources
    rw [List.append_cons]
    exact ih (filled.copyModule start onward' hasSource first) others sources' rest

/-! ## When copies come to their end -/

/-- **A module fits into a bundle:** its source is a file outside, and its destination goes on from the directory. -/
structure Fits (ground : FileSystem) (place : Place) (b : Bundle) (m : LocalModule) : Prop where
  source : HasSource ground place m
  extends_ : b.directory.Extends m.relativePath.way (b.directory.join m.relativePath)
  some : m.relativePath.way ≠ []

/-- **No relative path leads through another one.** -/
def Beside (modules : List LocalModule) : Prop :=
  ∀ m ∈ modules, ∀ n ∈ modules, m.relativePath.way <+: n.relativePath.way → m.relativePath.way = n.relativePath.way

/-- **A place receives modules:** directories are on the way to each of them, or nothing, and none is at its end. -/
structure Receives (ground : FileSystem) (place : Place) (modules : List LocalModule) (fs : FileSystem) : Prop where
  grown : Grown ground place fs
  clear : ∀ m ∈ modules, ∀ front, front <+: m.relativePath.way → front ≠ m.relativePath.way →
    fs.kind? (place ++ front) = some .directory ∨ fs.kind? (place ++ front) = none
  free : ∀ m ∈ modules, fs.kind? (place ++ m.relativePath.way) ≠ some .directory

/-- An empty directory receives all modules that have a name. -/
theorem receives_of_leadsToEmpty (empty : ground.LeadsToEmpty b.directory place)
    (some : ∀ m ∈ modules, m.relativePath.way ≠ []) : Receives ground place modules ground := by
  refine ⟨(opens_of_leadsToEmpty empty).grown, fun m mem front _ _ => ?_, fun m mem => ?_⟩
  · cases front with
    | nil =>
      rw [List.append_nil]
      exact .inl empty.directory
    | cons name rest => exact .inr (empty.bare name rest)
  · obtain ⟨name, rest, way⟩ := List.exists_cons_of_ne_nil (some m mem)
    rw [way, empty.bare]
    exact nofun

/-- A module is copied when the directories on its way are made and its file is copied then. -/
theorem exists_runs_copyModule {parent : Path} (isParent : (b.directory.join m.relativePath).parent? = some parent)
    (made : s.files.makeDirectories parent = (fs, .ok ()))
    (copied : fs.copy m.absolutePath (b.directory.join m.relativePath) = .ok fs') :
    ∃ t, (b.copyModule m).Runs s () t ∧ t.files = fs' := by
  have created : (createParent (b.directory.join m.relativePath)).Runs s () { s with files := fs } := by
    unfold createParent
    rw [isParent]
    exact Step.runs_change.mpr ⟨fs, made, rfl⟩
  have settled : fs.settle (fs.copy m.absolutePath (b.directory.join m.relativePath)) = (fs', .ok ()) := by
    rw [copied]
    rfl
  have copies : (copyFile m.absolutePath (b.directory.join m.relativePath)).Runs { s with files := fs } ()
      { s with files := fs' } := Step.runs_change.mpr ⟨fs', settled, rfl⟩
  unfold copyModule
  exact ⟨_, Step.runs_bind.mpr ⟨(), _, created, Step.runs_bind.mpr ⟨(), _, copies, Step.runs_note.mpr rfl⟩⟩, rfl⟩

/-- The directories on the way to a module lead to none of the modules. -/
theorem Beside.not_isPrefix {n : LocalModule} {front : Place} {last : String} (beside : Beside modules)
    (hm : m ∈ modules) (hn : n ∈ modules) (way : m.relativePath.way = front ++ [last]) :
    ¬ place ++ n.relativePath.way <+: place ++ front := by
  intro before
  rw [List.prefix_append_right_inj] at before
  have whole := beside n hn m hm (way ▸ before.trans (List.prefix_append _ _))
  have short := before.length_le
  rw [whole, way, List.length_append, List.length_singleton] at short
  omega

/-- The way to the last name of a module is clear. -/
theorem Receives.isClear {front : Place} {last : String} (receives : Receives ground place modules fs)
    (start : Opens ground b.directory place) (mem : m ∈ modules) (way : m.relativePath.way = front ++ [last]) :
    fs.IsClear b.directory place front := by
  refine ⟨(receives.grown.opens start).found, fun before isPrefix => receives.clear m mem before ?_ ?_⟩
  · exact way ▸ isPrefix.trans (List.prefix_append _ _)
  · intro whole
    have short := isPrefix.length_le
    rw [whole, way, List.length_append, List.length_singleton] at short
    omega

/-- **Directories on the way to a module** are in the way of none. -/
theorem Receives.parents {front : Place} {last : String} (receives : Receives ground place modules fs)
    (beside : Beside modules) (mem : m ∈ modules) (way : m.relativePath.way = front ++ [last])
    (grown : Grown ground place fs')
    (kinds : ∀ q, fs'.kind? q = if q <+: place ++ front then some .directory else fs.kind? q) :
    Receives ground place modules fs' := by
  refine ⟨grown, fun n mem' before isPrefix proper => ?_, fun n mem' => ?_⟩
  · rw [kinds]
    split
    · exact .inl rfl
    · exact receives.clear n mem' before isPrefix proper
  · rw [kinds, if_neg (beside.not_isPrefix mem mem' way)]
    exact receives.free n mem'

/-- **The file of a module** is in the way of none. -/
theorem Receives.put {target : Path} {place' : Place} {content : ByteArray} {executable : Bool}
    (receives : Receives ground place modules fs) (start : Opens ground b.directory place) (beside : Beside modules)
    (mem : m ∈ modules) (onward : b.directory.GoesOn m.relativePath.way target) (writes : fs.Writes target place') :
    Receives ground place modules (fs.put place' (.file content executable)) := by
  obtain ⟨grown, rfl⟩ : Grown ground place (fs.put place' (.file content executable)) ∧
      place' = place ++ m.relativePath.way := receives.grown.put start onward writes
  refine ⟨grown, fun n mem' before isPrefix proper => ?_, fun n mem' => ?_⟩
  · have other : place ++ before ≠ place ++ m.relativePath.way := by
      intro same
      cases List.append_cancel_left same
      exact proper (beside m mem n mem' isPrefix)
    rw [writes.kind?_put, if_neg other]
    exact receives.clear n mem' before isPrefix proper
  · rw [writes.kind?_put]
    split
    · exact nofun
    · exact receives.free n mem'

/-- The source of a module stays a file while a bundle grows. -/
theorem HasSource.isFile (hasSource : HasSource ground place m) (grown : Grown ground place fs) :
    fs.isFile m.absolutePath = true := by
  obtain ⟨source, content, executable, located, outside, entry⟩ := hasSource
  have kept := grown.more.place_eq located fun _ _ _ => outside
  have entry' := grown.more.kind entry fun _ _ _ => outside
  exact FileSystem.isFile_iff.mpr
    ⟨source, content, executable, FileSystem.place_eq_ok.mp kept, FileSystem.kind?_eq_file.mp entry'⟩

/-- **A module is copied where nothing is in its way,** and then nothing is in the way of the others. -/
theorem Receives.exists_runs (receives : Receives ground place modules s.files)
    (start : Opens ground b.directory place) (beside : Beside modules) (mem : m ∈ modules)
    (fits : Fits ground place b m) :
    ∃ t, (b.copyModule m).Runs s () t ∧ Receives ground place modules t.files := by
  obtain ⟨front, last, way⟩ : ∃ front last, m.relativePath.way = front ++ [last] := by
    rcases List.eq_nil_or_concat m.relativePath.way with none | ⟨front, last, way⟩
    · exact absurd none fits.some
    · exact ⟨front, last, way.trans List.concat_eq_append⟩
  have target : b.directory.Extends (front ++ [last]) (b.directory.join m.relativePath) := way ▸ fits.extends_
  obtain ⟨parent, isParent, around⟩ := target.parent
  -- The directories on the way are made.
  obtain ⟨fs, made, kinds⟩ := FileSystem.makeDirectories_of_clear (receives.isClear start mem way) around
  have grown : Grown ground place fs := by
    have kept := (Grown.keptByDirectories ground place).makeDirectories receives.grown parent
    rwa [made] at kept
  have receives' := receives.parents beside mem way grown kinds
  -- The file is copied behind them.
  have holds : fs.kind? (place ++ front) = some .directory := by rw [kinds, if_pos (List.prefix_refl _)]
  have vacant : fs.kind? (place ++ front ++ [last]) ≠ some .directory := by
    rw [List.append_assoc, ← way]
    exact receives'.free m mem
  have noLink : fs.NoLink (place ++ front ++ [last]) := by
    rw [List.append_assoc]
    exact grown.free _ (List.prefix_append _ _)
  obtain ⟨fs', copied⟩ :=
    FileSystem.copy_of_extends (fits.source.isFile grown) (grown.opens start).found target holds vacant noLink
  obtain ⟨t, run, rfl⟩ := exists_runs_copyModule isParent made copied
  obtain ⟨source, place', content, executable, -, -, writes, put⟩ := FileSystem.copy_eq_ok copied
  exact ⟨t, run, put ▸ receives'.put start beside mem fits.extends_.onward writes⟩

/-- **Modules are copied one after another** where nothing is in their way. -/
theorem Receives.exists_runs_forM (receives : Receives ground place modules s.files)
    (start : Opens ground b.directory place) (beside : Beside modules) (sub : todo ⊆ modules)
    (fits : ∀ m ∈ modules, Fits ground place b m) : ∃ t, (todo.forM b.copyModule).Runs s () t := by
  induction todo generalizing s with
  | nil => exact ⟨s, Step.runs_forM_nil.mpr rfl⟩
  | cons m todo ih =>
    obtain ⟨mem, others⟩ := List.cons_subset.mp sub
    obtain ⟨t, first, receives'⟩ := receives.exists_runs start beside mem (fits m mem)
    obtain ⟨u, rest⟩ := ih receives' others
    exact ⟨u, Step.runs_forM_cons.mpr ⟨t, first, rest⟩⟩

end Bundle

namespace Sources

open PyBundle.Bundle (HasSource Fits)

variable {s : Sources} {entry root : Path} {m n : LocalModule} {place : Place} {b : Bundle} {t u : Session}
  {modules : List LocalModule}

/-- A file is outside of an empty directory. -/
theorem hasSource_of_isFile (empty : t.files.LeadsToEmpty b.directory place)
    (file : t.files.isFile m.absolutePath = true) : HasSource t.files place m := by
  obtain ⟨source, content, executable, leads, entry⟩ := FileSystem.isFile_iff.mp file
  have holds := FileSystem.kind?_eq_file.mpr entry
  refine ⟨source, content, executable, FileSystem.place_eq_ok.mpr leads, fun below => ?_, holds⟩
  cases empty.eq_directory below holds

/-- Where copies have come to their end, no relative path leads through another one. -/
theorem beside_of_runs (empty : t.files.LeadsToEmpty b.directory place)
    (fits : ∀ m ∈ modules, Fits t.files place b m) (run : (modules.forM b.copyModule).Runs t () u) :
    Bundle.Beside modules := by
  have start := Bundle.opens_of_leadsToEmpty empty
  have bare : ∀ q content executable, place <+: q → t.files.kind? q ≠ some (.file content executable) := by
    intro q content executable below entry
    cases empty.eq_directory below entry
  have filled := (Bundle.filled_nil start bare).forM start (fun m mem => (fits m mem).extends_.onward)
    (fun m mem => (fits m mem).source) run
  intro m hm n hn before
  by_contra proper
  obtain ⟨rest, longer⟩ := before
  have some : rest ≠ [] := by
    rintro rfl
    exact proper (by rw [← longer, List.append_nil])
  obtain ⟨name, rest, rfl⟩ := List.exists_cons_of_ne_nil some
  -- Both have been copied, so one is a file where the other one has a directory.
  obtain ⟨content, executable, entry⟩ := filled.each m hm
  obtain ⟨content', executable', entry'⟩ := filled.each n hn
  rw [← longer, ← List.append_assoc] at entry'
  have directory := FileSystem.kind?_eq_directory_of_append (by rw [entry']; exact nofun)
  cases directory.symm.trans entry

/-- A module that is found fits into a directory, unless its path there is too long. -/
theorem Reachable.fits {ground : FileSystem} (entryFile : s.files.isFile entry = true) (reach : s.Reachable entry m)
    (stands : s.StandsBelow m root) (isRoot : root.isAbsolute = true) (absolute : b.directory.isAbsolute = true)
    (found : ground.place b.directory = .ok place) (hasSource : HasSource ground place m)
    (relative : m.relativePath.isAbsolute = false) (short : ¬ (b.directory.join m.relativePath).IsTooLong) :
    Fits ground place b m := by
  obtain ⟨-, steps, some⟩ := reach.exists_way entryFile relative
  have usable := (FileSystem.resolve_iff.mp (FileSystem.place_eq_ok.mp found)).1
  exact ⟨hasSource, FileSystem.extends_join stands.file isRoot usable absolute relative steps short, some⟩

/-- **The modules that are found have relative paths beside each other,** but for the entry, which is in the way of what
lies in a directory of its name. They can be copied into an empty directory if and only if none is in the way of
another. -/
theorem collect_layout (s : Sources) (c : Config) (entry : Path) (limit : Nat)
    (search : c.searchRoots s.files = .ok s.roots)
    (start : Config.absolute s.files c.entryFile = .ok entry)
    (success : (s.collect entry limit).1 = .ok ()) :
    let modules := (s.collect entry limit).2.modules
    (∀ m ∈ modules, ∀ n ∈ modules,
      m.relativePath.components <+: n.relativePath.components ∧
        m.relativePath.components ≠ n.relativePath.components ↔ m = .entry entry ∧ InTheWay entry n) ∧
    ∀ (b : Bundle) (t : Session) (place : Place), b.directory.isAbsolute = true →
      t.files.LeadsToEmpty b.directory place →
      (∀ m ∈ modules, t.files.isFile m.absolutePath = true ∧ m.relativePath.isAbsolute = false ∧
        ¬ (b.directory.join m.relativePath).IsTooLong) →
      ((∃ u, (modules.forM b.copyModule).Runs t () u) ↔
        ∀ m ∈ modules, ∀ n ∈ modules, m.relativePath.components <+: n.relativePath.components →
          m.relativePath.components = n.relativePath.components) := by
  intro modules
  obtain ⟨isRoot, -, -⟩ := Config.searchRoots_spec search start
  obtain ⟨entryFile, stand⟩ := exists_standsBelow_of_collect search start success
  refine ⟨fun m hm n hn => ⟨fun proper => ?_, ?_⟩, fun b t place absolute empty each => ?_⟩
  · exact relativePath_isPrefix entryFile (stand m hm).1 (stand n hn).1 proper.1 proper.2
  · rintro ⟨rfl, name, rest, fileName, -, some, components⟩
    obtain ⟨name', fileName', -, -, components'⟩ := exists_entry_name entryFile
    cases fileName.symm.trans fileName'
    rw [components, components']
    exact ⟨List.prefix_append [_] rest, fun same => some (List.cons.inj same).2.symm⟩
  · have fits : ∀ m ∈ modules, Fits t.files place b m := fun m hm =>
      have ⟨reach, root, stands⟩ := stand m hm
      have ⟨file, relative, short⟩ := each m hm
      reach.fits entryFile stands (isRoot root stands.mem) absolute empty.found (hasSource_of_isFile empty file) relative
        short
    have components : ∀ m ∈ modules, m.relativePath.components = m.relativePath.way.map .name := fun m hm =>
      ((stand m hm).1.exists_way entryFile (each m hm).2.1).1
    have injective : Function.Injective Path.Component.name := fun _ _ => Path.Component.name.inj
    have beside_iff : (∀ m ∈ modules, ∀ n ∈ modules, m.relativePath.components <+: n.relativePath.components →
        m.relativePath.components = n.relativePath.components) ↔ Bundle.Beside modules := by
      refine forall₂_congr fun m hm => forall₂_congr fun n hn => ?_
      rw [components m hm, components n hn, List.map_injective_iff.mpr injective |>.eq_iff]
      exact imp_congr_left (List.prefix_map_iff_of_injective injective)
    rw [beside_iff]
    constructor
    · rintro ⟨u, run⟩
      exact beside_of_runs empty fits run
    · intro beside
      have receives := Bundle.receives_of_leadsToEmpty empty fun m hm => (fits m hm).some
      exact receives.exists_runs_forM (Bundle.opens_of_leadsToEmpty empty) beside (List.Subset.refl _) fits

/-- A script that imports the package `pkg` from another directory, and an empty directory. -/
def importer (script : String) : Sources where
  files := {
    entries := [
      ("app", .directory [(script, .file "import pkg\n".toUTF8 false)]),
      ("lib", .directory [("pkg", .directory [("__init__.py", .file "".toUTF8 false)])]),
      ("out", .directory [])] }
  roots := [⟨"/app"⟩, ⟨"/lib"⟩]
  parse source := if source = "" then .ok [] else .ok [{ moduleName := "pkg" }]
  classify _ := .unknown

/-- The configuration that bundles the script. -/
def importing (script : String) : Config where
  entryFile := ⟨"/app/" ++ script⟩
  exportDirectory := ⟨"/out"⟩
  searchPaths := [⟨"/lib"⟩]

/-- The package that the script imports. -/
def imported : LocalModule := ⟨⟨"/lib/pkg/__init__.py"⟩, ⟨"pkg/__init__.py"⟩, true, "pkg"⟩

theorem collect_layout_main :
    let found := ((importer "main.py").collect ⟨"/app/main.py"⟩).2.modules
    found = [.entry ⟨"/app/main.py"⟩, imported] ∧
      ∃ u, (found.forM (Bundle.copyModule ⟨⟨"/out"⟩, fun _ => false⟩)).Runs
        { files := (importer "main.py").files } () u := by
  intro found
  have search : (importing "main.py").searchRoots (importer "main.py").files = .ok (importer "main.py").roots :=
    eq_ok_of_toOption (by decide +kernel)
  have start : Config.absolute (importer "main.py").files (importing "main.py").entryFile = .ok ⟨"/app/main.py"⟩ :=
    eq_ok_of_toOption (by decide +kernel)
  have success : ((importer "main.py").collect ⟨"/app/main.py"⟩).1 = .ok () := eq_ok_of_toOption (by decide +kernel)
  have modules : found = [.entry ⟨"/app/main.py"⟩, imported] := by decide +kernel
  have empty : (importer "main.py").files.LeadsToEmpty ⟨"/out"⟩ ["out"] :=
    ⟨eq_ok_of_toOption (by decide +kernel), by decide +kernel, fun _ _ => rfl⟩
  have layout := (collect_layout (importer "main.py") (importing "main.py") ⟨"/app/main.py"⟩
    (importer "main.py").depthLimit search start success).2 ⟨⟨"/out"⟩, fun _ => false⟩
    { files := (importer "main.py").files } ["out"] (by decide) empty
  refine ⟨modules, (layout ?_).mpr ?_⟩
  · show ∀ m ∈ found, _
    rw [modules]
    refine List.forall_mem_cons.mpr ⟨⟨by decide +kernel, by decide, by unfold Path.IsTooLong; decide⟩,
      List.forall_mem_singleton.mpr ⟨by decide +kernel, by decide, by unfold Path.IsTooLong; decide⟩⟩
  · show ∀ m ∈ found, ∀ n ∈ found, _
    rw [modules]
    decide

/-- **A script is in the way of the package that it is named for:** its configuration is valid and all that it imports
is found, but the copies do not come to their end. -/
theorem collect_layout_clash :
    let found := ((importer "pkg").collect ⟨"/app/pkg"⟩).2.modules
    ((importing "pkg").validate (importer "pkg").files).toOption = some () ∧
      (importing "pkg").searchRoots (importer "pkg").files = .ok (importer "pkg").roots ∧
      Config.absolute (importer "pkg").files (importing "pkg").entryFile = .ok ⟨"/app/pkg"⟩ ∧
      ((importer "pkg").collect ⟨"/app/pkg"⟩).1 = .ok () ∧
      LocalModule.entry ⟨"/app/pkg"⟩ ∈ found ∧ imported ∈ found ∧
      (LocalModule.entry ⟨"/app/pkg"⟩).relativePath.components <+: imported.relativePath.components ∧
      (LocalModule.entry ⟨"/app/pkg"⟩).relativePath.components ≠ imported.relativePath.components ∧
      (importer "pkg").files.LeadsToEmpty ⟨"/out"⟩ ["out"] ∧
      ∀ u, ¬ (found.forM (Bundle.copyModule ⟨⟨"/out"⟩, fun _ => false⟩)).Runs
        { files := (importer "pkg").files } () u := by
  intro found
  have stopped : ((found.forM (Bundle.copyModule ⟨⟨"/out"⟩, fun _ => false⟩)).outcome
      { files := (importer "pkg").files }).1.toOption = none := by decide +kernel
  refine ⟨by decide +kernel, eq_ok_of_toOption (by decide +kernel), eq_ok_of_toOption (by decide +kernel),
    eq_ok_of_toOption (by decide +kernel), by decide +kernel, by decide +kernel, by decide, by decide,
    ⟨eq_ok_of_toOption (by decide +kernel), by decide +kernel, fun _ _ => rfl⟩, fun u run => ?_⟩
  rw [show Step.outcome _ _ = _ from run] at stopped
  cases stopped

end Sources

end PyBundle
