import PyBundle.Proofs.Bundle.Layout
import PyBundle.Proofs.Collect.Forms
import PyBundle.Proofs.Collect.Same
import PyBundle.Proofs.Collect.Termination

/-!
# Names in a bundle

A walk looks names up under several roots, where packages win over plain modules and each root over those behind it. In
the bundle all that was found stands under one root. The names have the same meaning there (`package_resolution`): what
was found under a name has its place in the bundle, and nothing that was shadowed has got into it, because a relative
path tells the form of its module.
-/

namespace PyBundle

open Syntax (ParseError)
open FileSystem (KeptByDirectories)

namespace FileSystem

variable {fs fs' ground : FileSystem} {p q : Path} {place : Place}

/-! ## Where nothing has been -/

/-- **Nothing is where a directory is to be made:** its path leads nowhere, and where it leads when the directory is
made, nothing has been. -/
def IsVacant (fs : FileSystem) (p : Path) : Prop :=
  fs.pathExists p = false ∧
    ∀ fs' place, fs.makeDirectories p = (fs', .ok ()) → fs'.place p = .ok place → fs.kind? place = none

/-- A path that leads nowhere and does not climb through directories that are missing is one where nothing is. -/
theorem isVacant_of_settled (written : p.isEmpty = false) (vacant : fs.pathExists p = false)
    (settled : fs.IsSettled p) : fs.IsVacant p := by
  refine ⟨vacant, fun fs' place made found => ?_⟩
  obtain ⟨place', empty, missing⟩ := makeDirectories_fresh written (isDirectory_of_not_pathExists vacant) settled made
  rwa [Except.ok.inj (found.symm.trans empty.found)]

/-- **Only directories are new.** -/
structure MoreDirectories (ground fs : FileSystem) : Prop where
  within : ground.Within fs
  old : ∀ q k, fs.kind? q = some k → k = .directory ∨ ground.kind? q = some k

theorem moreDirectories_keptByDirectories (ground : FileSystem) : KeptByDirectories (MoreDirectories ground) := by
  intro fs directory name more holds missing isName
  refine ⟨keptByDirectories_within ground fs directory name more.within holds missing isName, fun q k entry => ?_⟩
  rw [kind?_put_directory holds missing] at entry
  split at entry
  · cases entry
    exact .inl rfl
  · exact more.old q k entry

/-- Paths that say the same lead to the same place. -/
theorem place_unique {place' : Place} (same : p.sameAs q = true) (found : fs.place p = .ok place)
    (found' : fs.place q = .ok place') : place = place' := by
  have way : p.way = q.way := congrArg (List.map Path.Component.text) (Path.sameAs_iff.mp same).2
  have start : fs.startOf p = fs.startOf q := by
    unfold startOf
    rw [Path.isAbsolute_eq_of_sameAs same]
  have leads := leads_of_place found
  rw [way, start] at leads
  cases leads.unique (leads_of_place found')
  rfl

end FileSystem

namespace Bundle

variable {ground fs : FileSystem} {place : Place} {b : Bundle} {s t : Session} {m n : LocalModule}
  {modules : List LocalModule} {name : String} {isPackage : Bool} {u : Unit}

/-- **A directory that is made where nothing has been** is filled with no modules, and all files are as they were. -/
theorem exists_opens_of_runs_reset (written : b.directory.isEmpty = false) (vacant : s.files.IsVacant b.directory)
    (run : b.reset.Runs s u t) :
    ∃ place, Opens t.files b.directory place ∧ s.files.Within t.files ∧ s.files.kind? place = none ∧
      Filled t.files place [] t.files := by
  obtain ⟨left, removed, made⟩ := runs_reset run
  cases (FileSystem.clear_of_not_pathExists vacant.1).symm.trans removed
  have more : FileSystem.MoreDirectories s.files t.files := by
    have kept := (FileSystem.moreDirectories_keptByDirectories s.files).makeDirectories
      ⟨FileSystem.Within.refl s.files, fun _ _ => .inr⟩ b.directory
    rwa [made] at kept
  obtain ⟨place, found, directory⟩ :=
    FileSystem.isDirectory_iff.mp (FileSystem.isDirectory_of_makeDirectories written made)
  have missing : s.files.kind? place = none := vacant.2 t.files place made found
  have new : ∀ q k, place <+: q → t.files.kind? q = some k → k = .directory := by
    rintro q k ⟨rest, rfl⟩ entry
    refine (more.old _ k entry).resolve_right fun old => ?_
    rw [FileSystem.kind?_append_eq_none missing] at old
    cases old
  have start : Opens t.files b.directory place :=
    ⟨found, directory, fun q below target entry => by cases new q _ below entry⟩
  have bare : ∀ q content executable, place <+: q → t.files.kind? q ≠ some (.file content executable) :=
    fun q content executable below entry => by cases new q _ below entry
  exact ⟨place, start, more.within, missing, filled_nil start bare⟩

/-- The path of a module that was copied can be the path of something. -/
theorem isUsable_of_runs_copyModule (run : (b.copyModule m).Runs s () t)
    (ends : (b.directory.join m.relativePath).EndsInName) : (b.directory.join m.relativePath).IsUsable := by
  obtain ⟨_, -, copied⟩ := exists_of_runs_copyModule run
  exact FileSystem.isUsable_of_copy copied ends

/-! ## What is found in a bundle -/

section

variable (filled : Filled ground place modules fs) (start : Opens ground b.directory place)
  (fits : ∀ m ∈ modules, Fits ground place b m)

include filled start fits

/-- A module is found at its path in the bundle. -/
theorem Filled.place_join (mem : m ∈ modules) :
    fs.place (b.directory.join m.relativePath) = .ok (place ++ m.relativePath.way) := by
  have now := filled.grown.opens start
  obtain ⟨content, executable, entry⟩ := filled.each m mem
  exact FileSystem.place_of_extends now.found now.directory (fits m mem).extends_ entry

/-- **A bundle holds a name in a form if and only if its path in that form is the relative path of a module.** -/
theorem Filled.holds_iff (areNames : ∀ m ∈ modules, m.relativePath = .ofNames m.relativePath.way)
    (proper : ∀ segment ∈ DottedName.segments name, IsFileName segment) :
    LocalModule.Holds fs name isPackage b.directory ↔
      ∃ m ∈ modules, m.relativePath = LocalModule.candidatePath (DottedName.segments name) isPackage := by
  have now := filled.grown.opens start
  have some := DottedName.segments_ne_nil name
  unfold LocalModule.Holds LocalModule.below
  constructor
  · intro holds
    rw [LocalModule.candidatePath_eq proper some] at holds ⊢
    obtain ⟨q, content, executable, resolved, entry⟩ := FileSystem.isFile_iff.mp holds
    have leads := FileSystem.leads_of_place (FileSystem.place_eq_ok.mpr resolved)
    have written := (FileSystem.resolve_iff.mp (FileSystem.place_eq_ok.mp now.found)).1.written
    have isNames : ∀ n ∈ LocalModule.fileNames (DottedName.segments name) isPackage, IsFileName n := fun _ =>
      LocalModule.isFileName_of_mem_fileNames proper
    have onward := Path.goesOn_join_ofNames written isNames
    obtain rfl : q = place ++ _ :=
      leads.place_of_goesOn now.found now.directory now.free onward (LocalModule.fileNames_ne_nil some)
    obtain ⟨m, mem, same, -⟩ :=
      filled.only _ content executable (List.prefix_append _ _) (FileSystem.kind?_eq_file.mpr entry)
    refine ⟨m, mem, ?_⟩
    rw [areNames m mem, List.append_cancel_left same]
  · rintro ⟨m, mem, relative⟩
    obtain ⟨content, executable, entry⟩ := filled.each m mem
    rw [← relative]
    exact FileSystem.isFile_iff.mpr ⟨_, content, executable,
      FileSystem.place_eq_ok.mp (filled.place_join start fits mem), FileSystem.kind?_eq_file.mp entry⟩

/-- **A module has the bytes of its source in the bundle,** if modules with one relative path are one file. -/
theorem Filled.read_join (mem : m ∈ modules)
    (areNames : ∀ m ∈ modules, m.relativePath = .ofNames m.relativePath.way)
    (one : ∀ n ∈ modules, n.relativePath = m.relativePath → n.absolutePath.sameAs m.absolutePath = true) :
    ∃ content, ground.read m.absolutePath = .ok content ∧
      fs.read (b.directory.join m.relativePath) = .ok content := by
  obtain ⟨content, executable, entry⟩ := filled.each m mem
  obtain ⟨n, mem', same, source, located, original⟩ := filled.only _ content executable (List.prefix_append _ _) entry
  obtain ⟨source', content', executable', located', -, original'⟩ := (fits m mem).source
  have relative : n.relativePath = m.relativePath := by
    rw [areNames n mem', areNames m mem, List.append_cancel_left same]
  cases FileSystem.place_unique (one n mem' relative) located located'
  cases original.symm.trans original'
  exact ⟨content, FileSystem.read_eq_ok.mpr ⟨source, executable, located', original⟩,
    FileSystem.read_eq_ok.mpr ⟨_, executable, filled.place_join start fits mem, entry⟩⟩

end

end Bundle

namespace Sources

open PyBundle.Bundle (Filled Fits Opens)

variable {s : Sources} {entry : Path} {ground fs : FileSystem} {place : Place} {b : Bundle} {m : LocalModule}
  {modules : List LocalModule} {name : String}

/-- The relative path of what the program reaches leads through the file names on its way. -/
theorem Reachable.relativePath_eq_ofNames (spelled : ∀ m, s.Reachable entry m → ∀ l, s.HasLine m l → l.IsSlashFree)
    (file : s.files.isFile entry = true) (reach : s.Reachable entry m) :
    m.relativePath.isAbsolute = false ∧ m.relativePath = .ofNames m.relativePath.way := by
  obtain ⟨names, some, proper, path⟩ := reach.exists_fileNames spelled file
  rw [path, Path.way_of_steps (Path.steps_ofNames proper some)]
  exact ⟨Path.isAbsolute_ofNames proper, rfl⟩

/-- **What a walk has found, and what is left of it:** the modules that the program reaches, each at its place in the
bundle. -/
structure Bundled (s : Sources) (entry : Path) (b : Bundle) (ground : FileSystem) (place : Place)
    (modules : List LocalModule) (fs : FileSystem) : Prop where
  entryFile : s.files.isFile entry = true
  stand : ∀ m ∈ modules, s.Reachable entry m ∧ ∃ root, s.StandsBelow m root
  areNames : ∀ m ∈ modules, m.relativePath = .ofNames m.relativePath.way
  fits : ∀ m ∈ modules, Fits ground place b m
  start : Opens ground b.directory place
  filled : Filled ground place modules fs

section

variable (bundled : s.Bundled entry b ground place modules fs) (each : DottedName.Each IsModuleSegment name)

include bundled each

/-- The bundle holds a name in a form if its path in that form is a relative path. -/
theorem Bundled.holds_iff {isPackage : Bool} (full : "" ∉ DottedName.segments name) :
    LocalModule.Holds fs name isPackage b.directory ↔
      ∃ m ∈ modules, m.relativePath = LocalModule.candidatePath (DottedName.segments name) isPackage := by
  have free : SlashFree name := DottedName.slashFree_iff.mpr fun segment mem => (each segment mem).slashFree
  exact bundled.filled.holds_iff bundled.start bundled.fits bundled.areNames fun segment =>
    LocalModule.isFileName_of_mem_segments full free

/-- **A name under which nothing is found is not found in the bundle.** -/
theorem Bundled.locate_eq_none (missing : LocalModule.locate s.files s.roots name = none) :
    LocalModule.locate fs [b.directory] name = none := by
  refine Option.eq_none_iff_forall_ne_some.mpr fun n found => ?_
  obtain ⟨full, before, root, after, split, -, isPackage, holds, -, -⟩ := LocalModule.locate_eq_some.mp found
  have isRoot : root ∈ [b.directory] := by rw [split]; simp
  rw [List.mem_singleton.mp isRoot] at holds
  obtain ⟨m, mem, relative⟩ := (bundled.holds_iff each full).mp holds
  obtain ⟨-, root', stands⟩ := bundled.stand m mem
  obtain ⟨t, located⟩ := stands.exists_locate full relative
  cases missing.symm.trans located

variable (spelled : ∀ m, s.Reachable entry m → ∀ l, s.HasLine m l → l.Spells IsModuleSegment)

include spelled

/-- **What is found under a name is found under it in the bundle,** in the same form. -/
theorem Bundled.locate_eq_some (found : LocalModule.locate s.files s.roots name = some m) (mem : m ∈ modules) :
    LocalModule.locate fs [b.directory] name = some (.below b.directory name m.isPackage) ∧
      m.relativePath = LocalModule.candidatePath (DottedName.segments name) m.isPackage := by
  obtain ⟨full, _, _, _, -, -, isPackage, -, -, here⟩ := LocalModule.locate_eq_some.mp found
  have form : m.isPackage = isPackage := by rw [here]; rfl
  have relative : m.relativePath = LocalModule.candidatePath (DottedName.segments name) m.isPackage := by
    rw [form, here]
    rfl
  have holds := (bundled.holds_iff each full).mpr ⟨m, mem, relative⟩
  refine ⟨LocalModule.locate_eq_some.mpr
    ⟨full, [], b.directory, [], rfl, nofun, m.isPackage, holds, fun plain package => ?_, rfl⟩, relative⟩
  -- A package in the bundle would have been found first.
  obtain ⟨n, mem', relative'⟩ := (bundled.holds_iff each full).mp package
  obtain ⟨isPackage', located⟩ := (bundled.stand n mem').1.isPackage_of_relativePath bundled.entryFile spelled full
    each relative'
  cases found.symm.trans located
  exact Bool.false_ne_true (plain.symm.trans isPackage')

/-- **A name has the same meaning in the bundle,** if modules with one relative path are one file. -/
theorem Bundled.locate_iff (more : s.files.Within ground)
    (one : ∀ m ∈ modules, ∀ n ∈ modules, n.relativePath.sameAs m.relativePath = true →
      n.absolutePath.sameAs m.absolutePath = true)
    (mem : ∀ m, LocalModule.locate s.files s.roots name = some m → m ∈ modules) :
    ((LocalModule.locate fs [b.directory] name).isSome = true ↔
      (LocalModule.locate s.files s.roots name).isSome = true) ∧
    ∀ m n, LocalModule.locate s.files s.roots name = some m → LocalModule.locate fs [b.directory] name = some n →
      n.relativePath = m.relativePath ∧ n.isPackage = m.isPackage ∧
        ∃ content, s.files.read m.absolutePath = .ok content ∧ fs.read n.absolutePath = .ok content := by
  cases found : LocalModule.locate s.files s.roots name with
  | none =>
    rw [bundled.locate_eq_none each found]
    exact ⟨Iff.rfl, nofun⟩
  | some m =>
    have isMember := mem m found
    obtain ⟨again, relative⟩ := bundled.locate_eq_some each spelled found isMember
    rw [again]
    refine ⟨by simp, ?_⟩
    rintro _ _ ⟨⟩ ⟨⟩
    obtain ⟨content, read, read'⟩ := bundled.filled.read_join bundled.start bundled.fits isMember bundled.areNames
      fun n mem' same => one m isMember n mem' (by rw [same]; exact Path.sameAs_refl _)
    have file := (bundled.stand m isMember).1.isFile bundled.entryFile
    obtain ⟨source, _, _, leads, -⟩ := FileSystem.isFile_iff.mp file
    refine ⟨relative.symm, rfl, content, more.read_of_place (FileSystem.place_eq_ok.mpr leads) read, ?_⟩
    rw [relative] at read'
    exact read'

end

/-- All that the program reaches is found by a walk that comes to its end. -/
theorem Reachable.mem_of_collect {limit : Nat} {found : Discovery}
    (collected : s.collect entry limit = (.ok (), found)) (reach : s.Reachable entry m) : m ∈ found.modules := by
  obtain ⟨closed, -⟩ := closed_of_collect (congrArg Prod.fst collected)
  rw [collected] at closed
  exact (closed.mem_iff m).mpr reach

/-- **A bundle that is written where nothing has been** holds what the walk has found. -/
theorem exists_bundled {c : Config} {limit : Nat} {found : Discovery} {t u : Session} {copied : List Path}
    (search : c.searchRoots s.files = .ok s.roots) (start : Config.absolute s.files c.entryFile = .ok entry)
    (collected : s.collect entry limit = (.ok (), found))
    (spelled : ∀ m, s.Reachable entry m → ∀ l, s.HasLine m l → l.IsSlashFree)
    (absolute : b.directory.isAbsolute = true) (same : t.files = s.files) (vacant : t.files.IsVacant b.directory)
    (run : (b.emit found.modules []).Runs t copied u) :
    ∃ ground place, s.Bundled entry b ground place found.modules u.files ∧ s.files.Within ground := by
  obtain ⟨isRoot, -, -⟩ := Config.searchRoots_spec search start
  obtain ⟨entryFile, stand⟩ := exists_standsBelow_of_collect search start (congrArg Prod.fst collected)
  rw [collected] at stand
  unfold Bundle.emit at run
  obtain ⟨⟨⟩, t', emptied, run⟩ := Step.runs_bind.mp run
  obtain ⟨⟨⟩, u', copies, nothing⟩ := Step.runs_bind.mp run
  obtain ⟨-, rfl⟩ := Step.runs_filterMapM_nil.mp nothing
  obtain ⟨place, opens, more, missing, bare⟩ :=
    Bundle.exists_opens_of_runs_reset (Path.isEmpty_of_isAbsolute absolute) vacant emptied
  rw [same] at more missing
  have areNames : ∀ m ∈ found.modules, m.relativePath = .ofNames m.relativePath.way := fun m mem =>
    ((stand m mem).1.relativePath_eq_ofNames spelled entryFile).2
  have fits : ∀ m ∈ found.modules, Fits t'.files place b m := by
    intro m mem
    obtain ⟨reach, root, stands⟩ := stand m mem
    obtain ⟨source, content, executable, leads, file⟩ := FileSystem.isFile_iff.mp (reach.isFile entryFile)
    have holds := FileSystem.kind?_eq_file.mpr file
    obtain ⟨_, _, first⟩ := Step.exists_runs_of_mem copies mem
    have ends : (b.directory.join m.relativePath).EndsInName := (Path.endsInName_join absolute).mpr
      ((Path.endsInName_join (isRoot root stands.mem)).mp (FileSystem.endsInName_of_isFile stands.file))
    have outside : ¬ place <+: source := by
      rintro ⟨rest, rfl⟩
      rw [FileSystem.kind?_append_eq_none missing] at holds
      cases holds
    exact reach.fits entryFile stands (isRoot root stands.mem) absolute opens.found
      ⟨source, content, executable, more.place_eq (FileSystem.place_eq_ok.mpr leads), outside, more.kind holds⟩
      (reach.relativePath_eq_ofNames spelled entryFile).1 (Bundle.isUsable_of_runs_copyModule first ends).short
  have filled := bare.forM opens (fun m mem => (fits m mem).extends_.onward) (fun m mem => (fits m mem).source) copies
  exact ⟨t'.files, place, ⟨entryFile, stand, areNames, fits, opens, filled⟩, more⟩

end Sources

namespace Packager

variable {p : Packager} {s t : Session} {outcome : Outcome} {entry target : Path} {roots : List Path}

/-- What the walk of a run knows. -/
def sources (p : Packager) (parse : String → Except ParseError (List ImportLine)) (fs : FileSystem)
    (roots : List Path) : Sources := ⟨fs, roots, parse, p.classify⟩

/-- **What a run that comes to its end has done,** if it has nothing to install and no manifest to write: it has
collected the modules and written the bundle. -/
theorem exists_emit_of_runs {host : Host} {parse : String → Except ParseError (List ImportLine)}
    {metadata : RunMetadata} (run : (p.package host parse metadata).Runs s outcome t)
    (located : Config.absolute s.files p.config.entryFile = .ok entry)
    (rooted : p.config.searchRoots s.files = .ok roots)
    (exported : Config.absolute s.files p.config.exportDirectory = .ok target)
    (installs : p.config.installDependencies = []) (manifest : p.config.generateManifest = false) :
    ∃ found excludes t' copied, (p.sources parse s.files roots).collect entry = (.ok (), found) ∧
      t'.files = s.files ∧
      (Bundle.emit ⟨target, excludes⟩ found.modules p.config.additionalModules).Runs t' copied t := by
  unfold package at run
  have run := Step.runs_files_bind.mp run
  obtain ⟨_, located', run⟩ := Step.runs_demand_bind.mp run
  cases located.symm.trans located'
  obtain ⟨_, exported', run⟩ := Step.runs_demand_bind.mp run
  cases exported.symm.trans exported'
  obtain ⟨_, rooted', run⟩ := Step.runs_demand_bind.mp run
  cases rooted.symm.trans rooted'
  rcases collected : (p.sources parse s.files roots).collect entry with ⟨answer, found⟩
  have gathered := outcome_collect collected
  obtain ⟨found', s', walked, run⟩ := Step.runs_bind.mp run
  cases answer with
  | error e => cases walked.symm.trans gathered
  | ok done =>
    cases walked.symm.trans gathered
    obtain ⟨filter, -, run⟩ := Step.runs_demand_bind.mp run
    obtain ⟨copied, written, emitted, run⟩ := Step.runs_bind.mp run
    have emitted := Step.runs_adapt.mp emitted
    obtain ⟨installed, m, nothing, later⟩ := Step.runs_bind.mp run
    unfold install at nothing
    rw [installs] at nothing
    obtain ⟨-, rfl⟩ := Step.runs_pure.mp nothing
    rw [manifest] at later
    obtain ⟨list, m', unlisted, ended⟩ := Step.runs_bind.mp later
    obtain ⟨-, rfl⟩ := Step.runs_pure.mp unlisted
    obtain ⟨-, rfl⟩ := Step.runs_pure.mp ended
    exact ⟨found, filter.excludes, { s with log := s.log ++ found.log }, copied, rfl, rfl, emitted⟩

/-- **Names have the same meaning in the bundle.** Let a run come to its end with nothing to add, to install or to
list, where nothing has been, and let the imports spell no slash and no `__init__`. Then each name that an import may
load is found in the bundle if and only if it is found in the sources, and then with the same relative path, in the
same form and with the same bytes. -/
theorem package_resolution (host : Host) (parse : String → Except ParseError (List ImportLine)) (metadata : RunMetadata)
    (p : Packager) (s : Session) {outcome : Outcome} {t : Session} {entry target : Path} {roots : List Path}
    (run : (p.package host parse metadata).Runs s outcome t)
    (located : Config.absolute s.files p.config.entryFile = .ok entry)
    (rooted : p.config.searchRoots s.files = .ok roots)
    (exported : Config.absolute s.files p.config.exportDirectory = .ok target)
    (additional : p.config.additionalModules = []) (installs : p.config.installDependencies = [])
    (manifest : p.config.generateManifest = false) (vacant : s.files.IsVacant target)
    (spelled : ∀ m, (p.sources parse s.files roots).Reachable entry m →
      ∀ l, (p.sources parse s.files roots).HasLine m l → l.Spells IsModuleSegment) :
    ∀ m, (p.sources parse s.files roots).Reachable entry m → ∀ l, (p.sources parse s.files roots).HasLine m l →
      ∀ a, l.absolute? m = some a → ∀ name ∈ a.candidates,
        ((LocalModule.locate t.files [target] name).isSome = true ↔
          (LocalModule.locate s.files roots name).isSome = true) ∧
        ∀ found bundled, LocalModule.locate s.files roots name = some found →
          LocalModule.locate t.files [target] name = some bundled →
            bundled.relativePath = found.relativePath ∧ bundled.isPackage = found.isPackage ∧
              ∃ content, s.files.read found.absolutePath = .ok content ∧
                t.files.read bundled.absolutePath = .ok content := by
  obtain ⟨found, excludes, t', copied, collected, same, emitted⟩ :=
    exists_emit_of_runs run located rooted exported installs manifest
  rw [additional] at emitted
  have slashFree : ∀ m, (p.sources parse s.files roots).Reachable entry m →
      ∀ l, (p.sources parse s.files roots).HasLine m l → l.IsSlashFree :=
    fun m reach l line => (spelled m reach l line).isSlashFree
  obtain ⟨ground, place, bundled, more⟩ :=
    Sources.exists_bundled (s := p.sources parse s.files roots) rooted located collected slashFree
      (Config.isAbsolute_of_absolute exported) same (same ▸ vacant) emitted
  intro m reach l line a absolute name candidate
  have each : DottedName.Each IsModuleSegment name :=
    ((spelled m reach l line).absolute (by decide) (reach.each (by decide) spelled) absolute).candidates (by decide)
      candidate
  refine bundled.locate_iff each spelled more (fun m hm n hn same => ?_) fun target looked => ?_
  · have oneFile := Sources.collect_destinations_of_slashFree (s := p.sources parse s.files roots) (m := n) (n := m)
      rooted located (congrArg Prod.fst collected) slashFree
    rw [collected] at oneFile
    exact oneFile hn hm same
  · exact Sources.Reachable.mem_of_collect collected (reach.tail ⟨l, a, name, line, absolute, candidate, looked⟩)

/-- A script beside a module, and a package of the same name in another directory. -/
def shadowed : FileSystem where
  entries := [
    ("app", .directory [
      ("main.py", .file "import pkg\n".toUTF8 false), ("pkg.py", .file "x = 1\n".toUTF8 false)]),
    ("lib", .directory [("pkg", .directory [("__init__.py", .file "x = 2\n".toUTF8 false)])])]

/-- The import lines of the script. All other texts have none. -/
def onlyImport (source : String) : Except ParseError (List ImportLine) :=
  .ok (if source = "import pkg\n" then [{ moduleName := "pkg" }] else [])

/-- The run for the script. -/
def ofShadowed : Packager where
  config := { entryFile := ⟨"/app/main.py"⟩, exportDirectory := ⟨"/out"⟩, searchPaths := [⟨"/lib"⟩]
              generateManifest := false }
  classify _ := .unknown

/-- The module that is found first is the one in the bundle. -/
theorem package_resolution_shadowed :
    ∃ outcome t found bundled, (ofShadowed.package idle onlyImport default).Runs { files := shadowed } outcome t ∧
      LocalModule.locate shadowed [⟨"/app"⟩, ⟨"/lib"⟩] "pkg" = some found ∧
      LocalModule.locate t.files [⟨"/out"⟩] "pkg" = some bundled ∧
      bundled.relativePath = found.relativePath ∧ bundled.isPackage = false ∧
      t.files.read bundled.absolutePath = .ok "x = 1\n".toUTF8 := by
  have located : Config.absolute shadowed ofShadowed.config.entryFile = .ok ⟨"/app/main.py"⟩ :=
    Sources.eq_ok_of_toOption (by decide +kernel)
  have exported : Config.absolute shadowed ofShadowed.config.exportDirectory = .ok ⟨"/out"⟩ :=
    Sources.eq_ok_of_toOption (by decide +kernel)
  have rooted : ofShadowed.config.searchRoots shadowed = .ok [⟨"/app"⟩, ⟨"/lib"⟩] :=
    Sources.eq_ok_of_toOption (by decide +kernel)
  have vacant : shadowed.IsVacant ⟨"/out"⟩ :=
    FileSystem.isVacant_of_settled (by decide) (by decide +kernel) (.inl (by decide))
  have ends : ((ofShadowed.package idle onlyImport default).outcome { files := shadowed }).1.toOption.isSome = true :=
    by decide +kernel
  obtain ⟨outcome, answered⟩ := Option.isSome_iff_exists.mp ends
  have run := Step.runs_of_toOption answered
  have spelled : ∀ m, (ofShadowed.sources onlyImport shadowed [⟨"/app"⟩, ⟨"/lib"⟩]).Reachable ⟨"/app/main.py"⟩ m →
      ∀ l, (ofShadowed.sources onlyImport shadowed [⟨"/app"⟩, ⟨"/lib"⟩]).HasLine m l → l.Spells IsModuleSegment := by
    intro m _ l line
    obtain ⟨source, lines, parsed, mem⟩ := line.parsed
    cases parsed
    split at mem
    · rw [List.mem_singleton.mp mem]
      exact ⟨by unfold DottedName.Each; decide, nofun⟩
    · cases mem
  have line : (ofShadowed.sources onlyImport shadowed [⟨"/app"⟩, ⟨"/lib"⟩]).HasLine (.entry ⟨"/app/main.py"⟩)
      { moduleName := "pkg" } :=
    ⟨[{ moduleName := "pkg" }], Sources.eq_ok_of_toOption (by decide +kernel), List.mem_singleton_self _⟩
  have looked : LocalModule.locate shadowed [⟨"/app"⟩, ⟨"/lib"⟩] "pkg" = some (.below ⟨"/app"⟩ "pkg" false) := by
    decide +kernel
  obtain ⟨both, same⟩ := package_resolution idle onlyImport default ofShadowed { files := shadowed } run located rooted
    exported rfl rfl rfl vacant spelled _ .refl _ line _ rfl "pkg" (by decide)
  obtain ⟨bundled, again⟩ := Option.isSome_iff_exists.mp (both.mpr (by rw [looked]; rfl))
  obtain ⟨relative, form, content, read, read'⟩ := same _ bundled looked again
  have source : shadowed.read ⟨"/app/pkg.py"⟩ = .ok "x = 1\n".toUTF8 := Sources.eq_ok_of_toOption (by decide +kernel)
  cases source.symm.trans read
  exact ⟨outcome, _, _, bundled, run, looked, again, relative, form, read'⟩

end Packager

end PyBundle
