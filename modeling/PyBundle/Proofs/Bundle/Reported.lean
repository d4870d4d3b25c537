import PyBundle.Proofs.Bundle.Depth
import PyBundle.Proofs.Bundle.Stages
import PyBundle.Proofs.FileSystem.Folding

/-!
# The directory that is reported

A bundle is written through the absolute form of a path, in which each `..` stays, and the result of the run names the
normal form of the path. Both lead to the same directory as long as each `..` that is folded leads back
(`package_reports`). The normal form is taken without a look at the file system, so where a link is folded the result
names another directory, or nothing at all (`link_reported_elsewhere`).
-/

namespace PyBundle

open Syntax (ParseError)
open FileSystem (KeptByDirectories)

namespace FileSystem

variable {fs fs' ground : FileSystem} {p : Path} {here place : Place} {links : Nat} {names : List String}
  {content : ByteArray} {executable : Bool}

/-- **All but files stays:** the entries are as they were, except that files may have been written over. -/
def KeepsWays (ground fs : FileSystem) : Prop := ground.Spares fs fun _ => True

theorem keepsWays_keptByDirectories (ground : FileSystem) : KeptByDirectories (KeepsWays ground) :=
  fun _ _ _ kept _ missing _ =>
    have more := within_put missing
    ⟨more.workPlace.trans kept.workPlace, fun entry others => more.kind (kept.kind entry others)⟩

/-- A directory stays where its path leads. -/
theorem KeepsWays.place_eq (kept : KeepsWays ground fs) (found : ground.place p = .ok place)
    (directory : ground.kind? place = some .directory) :
    fs.place p = .ok place ∧ fs.kind? place = some .directory :=
  ⟨Spares.place_eq kept found fun _ _ file => (by cases directory.symm.trans file), kept.kind directory nofun⟩

/-- A file that is written through a path is written over no directory and no link, if the path starts in a
directory. -/
theorem KeepsWays.put (kept : KeepsWays ground fs) (start : ground.kind? (ground.startOf p) = some .directory)
    (writes : fs.Writes p place) : KeepsWays ground (fs.put place (.file content executable)) := by
  refine ⟨by simp [kept.workPlace], fun {q k} entry others => ?_⟩
  have before := kept.kind entry others
  rw [writes.kind?_put, if_neg, before]
  rintro rfl
  obtain ⟨spot, leads, holds, rfl, notDirectory⟩ := writes
  have start' : fs.kind? (fs.startOf p) = some .directory := by
    have same : fs.startOf p = ground.startOf p := by
      unfold startOf
      rw [kept.workPlace]
    rw [same]
    exact kept.kind start nofun
  cases k with
  | file content executable => exact others content executable rfl ⟨⟩
  | directory => exact notDirectory before
  | link target =>
    cases spot with
    | taken place => exact leads.noLink start' target before
    | vacant directory name => cases holds.2.1.symm.trans before

end FileSystem

namespace Bundle

open FileSystem (KeepsWays keepsWays_keptByDirectories)

variable {b : Bundle} {ground : FileSystem} {s t : Session}

theorem keepsWays_copyFile {target : Path} (start : ground.kind? (ground.startOf target) = some .directory)
    (source : Path) : Step.Keeps (KeepsWays ground) (copyFile source target) fun _ => True :=
  keeps_copyFile fun _ _ kept copied => by
    obtain ⟨_, place, content, executable, -, -, writes, rfl⟩ := FileSystem.copy_eq_ok copied
    exact kept.put start writes

/-- The ways stay with all that is written below the directory of a bundle. -/
theorem keptBelow_keepsWays (start : ground.kind? (ground.startOf b.directory) = some .directory) :
    KeptBelow b (KeepsWays ground) where
  create _ := keeps_create (keepsWays_keptByDirectories ground) _
  createParent _ := keeps_createParent (keepsWays_keptByDirectories ground) _
  copyFile onward source := keepsWays_copyFile (FileSystem.startOf_of_goesOn onward ▸ start) source

/-- The ways stay with each module that is copied, whatever its relative path says. -/
theorem keepsWays_copyModule (written : b.directory.isEmpty = false)
    (start : ground.kind? (ground.startOf b.directory) = some .directory) (m : LocalModule) :
    Step.Keeps (fun fs => KeepsWays ground fs ∧ fs.Proper) (b.copyModule m) fun _ => True := by
  have parent := (keeps_createParent (keepsWays_keptByDirectories ground) (b.directory.join m.relativePath)).and
    (keeps_createParent FileSystem.proper_keptByDirectories (b.directory.join m.relativePath))
  have joined : ground.kind? (ground.startOf (b.directory.join m.relativePath)) = some .directory := by
    unfold FileSystem.startOf at start ⊢
    cases relative : m.relativePath.isAbsolute with
    | false => rwa [Path.isAbsolute_join_of_written written relative]
    | true =>
      rw [Path.join_of_isAbsolute relative, relative, if_pos rfl]
      exact FileSystem.kind?_nil ground
  have file : Step.Keeps (fun fs => KeepsWays ground fs ∧ fs.Proper)
      (copyFile m.absolutePath (b.directory.join m.relativePath)) fun _ => True :=
    (keepsWays_copyFile joined m.absolutePath).and (keeps_proper_copyFile m.absolutePath _)
  exact parent.bind fun _ _ => file.bind fun _ _ => Step.keeps_note

/-- **All but files stays** from the reset of a bundle to its end. -/
theorem exists_keepsWays_of_emit {modules : List LocalModule} {additional copied : List Path}
    (written : b.directory.isEmpty = false) (proper : s.files.Proper)
    (run : (b.emit modules additional).Runs s copied t) :
    ∃ u m, b.reset.Runs s u m ∧ KeepsWays m.files t.files := by
  obtain ⟨u, m, reset, run⟩ := Step.runs_bind.mp run
  have left : b.reset.outcome s = (.ok u, m) := reset
  have started : m.files.Proper := by
    have kept : (b.reset.outcome s).2.files.Proper :=
      reset_keeps FileSystem.proper_keptByDirectories fun _ cleared => proper.of_within cleared.old
    rwa [left] at kept
  obtain ⟨_, found, -⟩ := FileSystem.isDirectory_iff.mp ((runs_reset reset).isDirectory written)
  have start := (FileSystem.resolve_iff.mp (FileSystem.place_eq_ok.mp found)).2.1
  have kept : KeptBelow b fun fs => KeepsWays m.files fs ∧ fs.Proper :=
    (keptBelow_keepsWays start).and (keptBelow_proper b)
  have copies : Step.Keeps (fun fs => KeepsWays m.files fs ∧ fs.Proper)
      (modules.forM b.copyModule >>= fun _ => additional.filterMapM b.copyAdditional) fun _ => True :=
    (Step.keeps_forM fun x _ => keepsWays_copyModule written start x).bind fun _ _ =>
      Step.keeps_filterMapM fun p _ => kept.copyAdditional And.right p
  exact ⟨u, m, reset, (copies.of_runs ⟨(FileSystem.Within.refl m.files).spares, started⟩ run).1⟩

/-- **A bundle has been written to a directory,** to which its path leads. -/
theorem exists_place_of_emit {modules : List LocalModule} {additional copied : List Path}
    (absolute : b.directory.isAbsolute = true) (proper : s.files.Proper)
    (run : (b.emit modules additional).Runs s copied t) :
    t.files.workPlace = s.files.workPlace ∧
      ∃ place, t.files.place b.directory = .ok place ∧ t.files.kind? place = some .directory := by
  have written := Path.isEmpty_of_isAbsolute absolute
  obtain ⟨u, m, reset, ways⟩ := exists_keepsWays_of_emit written proper run
  have left : b.reset.outcome s = (.ok u, m) := reset
  have workPlace : m.files.workPlace = s.files.workPlace := by
    have more := within_reset b s
    rw [left] at more
    exact more.workPlace.trans (FileSystem.within_without s.files b.directory).workPlace.symm
  obtain ⟨place, found, directory⟩ := FileSystem.isDirectory_iff.mp ((runs_reset reset).isDirectory written)
  exact ⟨ways.workPlace.trans workPlace, place, ways.place_eq found directory⟩

end Bundle

namespace Packager

/-- **The result of a run names the directory of the bundle.** Let a run come to its end. Then the bundle has been
written to the directory to which the absolute form of the configured path leads. In each file system where relative
paths start in the directory in which the run has started, be it the one that the run has left or a later one, the path
in the result leads where that form leads, if each `..` that is folded in the configured path leads back there. -/
theorem package_reports (host : Host) (parse : String → Except ParseError (List ImportLine)) (metadata : RunMetadata)
    (p : Packager) (s : Session) {outcome : Outcome} {t : Session}
    (run : (p.package host parse metadata).Runs s outcome t) (proper : s.files.Proper)
    (started : p.config.exportDirectory.isAbsolute = false → s.files.kind? s.files.workPlace = some .directory) :
    ∃ b found m copied m', p.Ready parse s b found m ∧
      (b.emit found.modules p.config.additionalModules).Runs m copied m' ∧
      m'.files.workPlace = s.files.workPlace ∧
      (∃ place, m'.files.place b.directory = .ok place ∧ m'.files.kind? place = some .directory) ∧
      ∀ fs : FileSystem, fs.workPlace = s.files.workPlace →
        (p.config.exportDirectory.isAbsolute = false → fs.kind? fs.workPlace = some .directory) →
        fs.FoldsBack p.config.exportDirectory →
        ∀ place, fs.place b.directory = .ok place → fs.kind? place = some .directory →
          fs.place ⟨outcome.result.buildDirectory⟩ = .ok place := by
  obtain ⟨b, found, m, copied, m', ready, emitted, result⟩ := exists_ready_of_runs run
  have files := ready.files.1
  have exported : Config.absolute s.files p.config.exportDirectory = .ok b.directory := by
    cases ready with
    | intro _ exported => exact exported
  obtain ⟨workPlace, wrote⟩ := Bundle.exists_place_of_emit (Config.isAbsolute_of_absolute exported)
    (by rwa [files]) emitted
  rw [files] at workPlace
  refine ⟨b, found, m, copied, m', ready, emitted, workPlace, wrote, fun fs same works folds place led directory => ?_⟩
  have made : fs.absolute p.config.exportDirectory = .ok b.directory := by
    have given := Config.absolute_eq_ok exported
    unfold FileSystem.absolute FileSystem.workPath at given ⊢
    rwa [same]
  have names : p.config.exportDirectory.isAbsolute = false → ∀ name ∈ fs.workPlace, IsFileName name := by
    intro relative
    rw [same]
    exact proper _ (by simp [started relative])
  rw [result]
  exact FileSystem.place_normalize names works made folds led directory

/-! ## A link on the way -/

/-- A script beside a link to a directory that is further down. -/
def besideLink : FileSystem where
  entries := [("main.py", .file "x = 1\n".toUTF8 false), ("link", .link "far/in"),
    ("far", .directory [("in", .directory [])])]
  workPlace := []

/-- A request for the script alone. -/
def withoutManifest (directory : String) : Packager where
  config := { entryFile := ⟨"/main.py"⟩, exportDirectory := ⟨directory⟩, generateManifest := false }
  classify _ := .unknown

/-- A run for the script, and what it leaves. -/
def runBesideLink (directory : String) : Except PackageError Outcome × Session :=
  ((withoutManifest directory).package idle (fun _ => .ok []) default).outcome { files := besideLink }

/-- **Where a link is folded, the result names another path** than the one to which the bundle has been written. -/
theorem link_reported_elsewhere :
    (runBesideLink "/link/../out").1.toOption.map (·.result.buildDirectory) = some "/out" ∧
      ((runBesideLink "/link/../out").2.files.place ⟨"/link/../out"⟩).toOption = some ["far", "out"] ∧
      ((runBesideLink "/link/../out").2.files.place ⟨"/out"⟩).toOption = none := by
  decide +kernel

/-- What the run for a directory behind the link leaves: a directory is made on the way. -/
theorem runBesideLink_behind :
    (runBesideLink "link/new/../out").1.toOption.map (·.result.buildDirectory) = some "link/out" ∧
      (runBesideLink "link/new/../out").2.files.workPlace = [] ∧
      ((runBesideLink "link/new/../out").2.files.place ⟨"/link/new/../out"⟩).toOption = some ["far", "in", "out"] ∧
      ((runBesideLink "link/new/../out").2.files.place ⟨"link"⟩).toOption = some ["far", "in"] ∧
      (runBesideLink "link/new/../out").2.files.kind? ["far", "in", "new"] = some .directory ∧
      (runBesideLink "link/new/../out").2.files.kind? ["far", "in", "out"] = some .directory := by
  decide +kernel

/-- A directory that is made on the way is folded, and the link before it is not. -/
theorem package_reports_behindLink :
    ∃ outcome t, ((withoutManifest "link/new/../out").package idle (fun _ => .ok []) default).Runs
        { files := besideLink } outcome t ∧ outcome.result.buildDirectory = "link/out" ∧
      t.files.place ⟨"link/out"⟩ = .ok ["far", "in", "out"] := by
  have exported : Config.absolute besideLink ⟨"link/new/../out"⟩ = .ok ⟨"/link/new/../out"⟩ :=
    Sources.eq_ok_of_toOption (by decide +kernel)
  have facts := runBesideLink_behind
  generalize ended : runBesideLink "link/new/../out" = left at facts
  obtain ⟨answer, t⟩ := left
  obtain ⟨reported, workPlace, wrote, linked, made, inside⟩ := facts
  obtain ⟨outcome, answered, named⟩ := Option.map_eq_some_iff.mp reported
  have run : ((withoutManifest "link/new/../out").package idle (fun _ => .ok []) default).Runs
      { files := besideLink } outcome t := by
    obtain rfl : answer = .ok outcome := Sources.eq_ok_of_toOption answered
    exact ended
  obtain ⟨b, found, m, copied, m', ready, -, -, -, same⟩ := package_reports idle (fun _ => .ok []) default
    (withoutManifest "link/new/../out") { files := besideLink } run (FileSystem.proper_of_all (by decide +kernel))
    fun _ => rfl
  have directory : b.directory = ⟨"/link/new/../out"⟩ := by
    cases ready with
    | intro _ exported' => exact Except.ok.inj (exported'.symm.trans exported)
  have folds : t.files.FoldsBack ⟨"link/new/../out"⟩ := by
    refine FileSystem.foldsBack_of_noLink fun front rest name below components folded here found => ?_
    have parts : (Path.mk "link/new/../out").components = [.name "link", .name "new", .up, .name "out"] := by
      decide +kernel
    rw [parts] at components
    -- The only `..` has two names before it.
    obtain rfl : front = [.name "link", .name "new"] := by
      rcases front with _ | ⟨first, _ | ⟨second, _ | ⟨third, _ | ⟨fourth, more⟩⟩⟩⟩ <;> simp_all
    obtain ⟨rfl, rfl⟩ : name = "new" ∧ below = [.name "link"] := by
      simpa [Path.Component.climb, eq_comm] using folded
    obtain rfl : here = ["far", "in"] :=
      Except.ok.inj (found.symm.trans (Sources.eq_ok_of_toOption linked))
    intro target entry
    cases made.symm.trans entry
  have led := same t.files workPlace (fun _ => by rw [workPlace]; exact FileSystem.kind?_nil _) folds
    ["far", "in", "out"] (directory ▸ Sources.eq_ok_of_toOption wrote) inside
  rw [named] at led
  exact ⟨outcome, t, run, named, led⟩

end Packager

end PyBundle
