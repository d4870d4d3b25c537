import PyBundle.Bundle.Package
import PyBundle.Proofs.Bundle.Below
import PyBundle.Proofs.Bundle.Reset
import PyBundle.Proofs.Collect.Closure
import PyBundle.Proofs.FileSystem.Files

/-!
# What a run leaves as it is

A run writes below the directory of its bundle and nowhere else. What it may destroy is what the path of that
directory names, because the directory is made anew, and files in what stands there then; everything else stays,
whether the run succeeds or fails, and with it the sources that are found there (`package_keeps_sources`).

The directory of the bundle is not compared with anything that is read, so a source that it names or holds goes
(`selfExport_destroys`). If its path climbs through a directory that is missing, then it may lead to another one
only when that is made, and what stands there is written over.
-/

namespace PyBundle

open Syntax (ParseError)
open FileSystem (KeptByDirectories)

namespace Bundle

variable {ground fs fs' : FileSystem} {place place' : Place} {p q : Path} {names : List String}
  {content : ByteArray} {executable : Bool}

/-! ## Below the directory -/

/-- **A path leads to a directory without links.** -/
structure Opens (fs : FileSystem) (p : Path) (place : Place) : Prop where
  found : fs.place p = .ok place
  directory : fs.kind? place = some .directory
  free : ∀ q, place <+: q → fs.NoLink q

/-- **A file system has grown below a directory:** it has all that was there, except for files below the
directory that may have been written over, and no link has come into the directory. -/
structure Grown (ground : FileSystem) (place : Place) (fs : FileSystem) : Prop where
  more : ground.Spares fs (place <+: ·)
  free : ∀ q, place <+: q → fs.NoLink q

/-- The directory stays where it is. -/
theorem Grown.opens (grown : Grown ground place fs) (start : Opens ground p place) : Opens fs p place where
  found := grown.more.place_eq start.found fun _ _ file => by cases start.directory.symm.trans file
  directory := grown.more.kind start.directory nofun
  free := grown.free

theorem Opens.grown (start : Opens ground p place) : Grown ground place ground :=
  ⟨(FileSystem.Within.refl ground).spares, start.free⟩

theorem Grown.keptByDirectories (ground : FileSystem) (place : Place) :
    KeptByDirectories (Grown ground place) := by
  intro fs directory name grown holds missing isName
  have more : fs.Within (fs.put (directory ++ [name]) (.directory [])) := FileSystem.within_put missing
  refine ⟨⟨more.workPlace.trans grown.more.workPlace, fun entry kept => more.kind (grown.more.kind entry kept)⟩, ?_⟩
  intro q below target entry
  rw [FileSystem.kind?_put_directory holds missing] at entry
  split at entry
  · cases entry
  · exact grown.free q below target entry

/-- **What is written through a path that goes on from the directory is written below it.** -/
theorem Grown.put (grown : Grown ground place fs) (start : Opens ground p place)
    (onward : p.GoesOn names q) (writes : fs.Writes q place') :
    Grown ground place (fs.put place' (.file content executable)) ∧ place' = place ++ names := by
  have now := grown.opens start
  obtain ⟨rfl, -⟩ := writes.place_of_goesOn now.found now.directory now.free onward
  refine ⟨⟨⟨by simp [grown.more.workPlace], fun {q k} entry kept => ?_⟩, fun q below target entry => ?_⟩, rfl⟩
  · have before := grown.more.kind entry kept
    rw [writes.kind?_put, if_neg, before]
    rintro rfl
    obtain ⟨-, -, -, -, notDirectory⟩ := writes
    cases k with
    | file content executable => exact kept content executable rfl (List.prefix_append _ _)
    | link target => exact grown.free _ (List.prefix_append _ _) target before
    | directory => exact notDirectory before
  · rw [writes.kind?_put] at entry
    split at entry
    · cases entry
    · exact grown.free q below target entry

/-- The invariant of writing a bundle: the file system has grown, and its entries have file names. -/
def Written (ground : FileSystem) (place : Place) (fs : FileSystem) : Prop :=
  Grown ground place fs ∧ fs.Proper

theorem written_keptByDirectories (ground : FileSystem) (place : Place) :
    KeptByDirectories (Written ground place) := fun fs directory name written holds missing isName =>
  ⟨Grown.keptByDirectories ground place fs directory name written.1 holds missing isName,
    FileSystem.proper_keptByDirectories fs directory name written.2 holds missing isName⟩

theorem Written.put (written : Written ground place fs) (start : Opens ground p place)
    (onward : p.GoesOn names q) (writes : fs.Writes q place') :
    Written ground place (fs.put place' (.file content executable)) :=
  ⟨(written.1.put start onward writes).1, written.2.put writes⟩

/-! ## Steps -/

/-- **The invariant stays with all that is written below the directory.** -/
theorem keptBelow_written {b : Bundle} (start : Opens ground b.directory place) :
    KeptBelow b (Written ground place) where
  create _ := keeps_create (written_keptByDirectories ground place) _
  createParent _ := keeps_createParent (written_keptByDirectories ground place) _
  copyFile onward _ := keeps_copyFile fun _ _ before copied => by
    obtain ⟨from_, place', content, executable, -, -, writes, rfl⟩ := FileSystem.copy_eq_ok copied
    exact before.put start onward writes

/-- **What a bundle that is written leaves:** a file system that has grown below its directory, or, if it fails
before, all that its directory does not name. -/
theorem grown_emit {b : Bundle} {s : Session} {modules : List LocalModule} (additional : List Path)
    (written : b.directory.isEmpty = false) (proper : s.files.Proper)
    (free : ∀ renewed place, s.files.Renews b.directory renewed → renewed.place b.directory = .ok place →
      ∀ q, place <+: q → renewed.NoLink q)
    (plain : ∀ m ∈ modules, ∀ c ∈ m.relativePath.components, ∃ name, c = .name name) :
    ((∃ e, ((b.emit modules additional).outcome s).1 = .error e) ∧
      (s.files.without b.directory).Within ((b.emit modules additional).outcome s).2.files) ∨
      ∃ ground place, s.files.Renews b.directory ground ∧ Opens ground b.directory place ∧
        Grown ground place ((b.emit modules additional).outcome s).2.files := by
  have base := within_reset b s
  have proper' : (b.reset.outcome s).2.files.Proper :=
    reset_keeps FileSystem.proper_keptByDirectories fun _ cleared => proper.of_within cleared.old
  unfold emit
  rw [Step.outcome_bind]
  rcases run : b.reset.outcome s with ⟨e | u, t⟩
  · rw [run] at base
    exact .inl ⟨⟨e, rfl⟩, base⟩
  · rw [run] at proper'
    have renews := runs_reset run
    obtain ⟨place, found, directory⟩ := FileSystem.isDirectory_iff.mp (renews.isDirectory written)
    have start : Opens t.files b.directory place := ⟨found, directory, free t.files place renews found⟩
    have kept := (keptBelow_written start).copies And.right plain additional
    exact .inr ⟨t.files, place, renews, start, (kept.left ⟨start.grown, proper'⟩).1⟩

end Bundle

/-! ## Installing -/

/-- **A call stays below a directory** that has no links: nothing else changes, directories stay, and no link comes
into it. -/
def Host.StaysBelow (host : Host) (call : Call) (p : Path) : Prop :=
  ∀ fs place, Bundle.Opens fs p place →
    (host.run fs call).1.workPlace = fs.workPlace ∧
    (∀ q, ¬ place <+: q → (host.run fs call).1.kind? q = fs.kind? q) ∧
    (∀ q, fs.kind? q = some .directory → (host.run fs call).1.kind? q = some .directory) ∧
    ∀ q, place <+: q → (host.run fs call).1.NoLink q

namespace Bundle

variable {ground fs : FileSystem} {place : Place} {p : Path} {b : Bundle}

theorem Grown.call {host : Host} {call : Call} (grown : Grown ground place fs)
    (start : Opens ground p place) (stays : host.StaysBelow call p) :
    Grown ground place (host.run fs call).1 := by
  obtain ⟨workPlace, outside, directories, free⟩ := stays fs place (grown.opens start)
  refine ⟨⟨workPlace.trans grown.more.workPlace, fun {q k} entry kept => ?_⟩, free⟩
  have before := grown.more.kind entry kept
  by_cases below : place <+: q
  · cases k with
    | file content executable => exact absurd below (kept content executable rfl)
    | link target => exact absurd before (grown.free q below target)
    | directory => exact directories q before
  · rw [outside q below, before]

theorem keeps_install {host : Host} {config : Config} (start : Opens ground p place)
    (stays : ∀ dependency ∈ config.installDependencies, ∀ architecture, config.architecture = some architecture →
      host.StaysBelow ⟨config.pip, Install.arguments p architecture dependency⟩ p) :
    Step.Keeps (Grown ground place) (Packager.install host config p) fun _ => True := by
  unfold Packager.install
  split
  · exact Step.keeps_pure ⟨⟩
  · split
    · exact Step.keeps_throw
    · rename_i architecture isArchitecture
      refine Step.keeps_adapt ?_
      unfold Install.all
      refine (Step.keeps_forM fun dependency mem => ?_).bind fun _ _ => Step.keeps_pure ⟨⟩
      unfold Install.one
      refine Step.keeps_note.bind fun _ _ => (Step.keeps_start fun fs grown => ?_).bind fun finished _ => ?_
      · exact grown.call start (stays dependency mem architecture isArchitecture)
      · split
        · exact Step.keeps_throw
        · exact Step.keeps_pure ⟨⟩

theorem keeps_manifest (start : Opens ground b.directory place) (pins : List Pin) (extra : List String) :
    Step.Keeps (Grown ground place) (Manifest.write b pins extra) fun _ => True := by
  have isName : IsFileName Manifest.fileName := by constructor <;> decide
  have onward := b.directory.goesOn_push isName
  unfold Manifest.write
  refine (keeps_create (Grown.keptByDirectories ground place) _).bind fun _ _ => ?_
  refine (Step.keeps_change fun fs grown => ?_).bind fun _ _ => Step.keeps_pure ⟨⟩
  cases wrote : fs.write (b.directory.push Manifest.fileName) (Manifest.render pins extra).toUTF8 with
  | error fault => exact grown
  | ok fs' =>
    obtain ⟨place', executable, writes, rfl⟩ := FileSystem.write_eq_ok wrote
    exact (grown.put start onward writes).1

end Bundle

/-! ## The run -/

/-- **A path leads to an entry apart from a directory that is made anew:** to another one than the directory's path
names and to none below that, and to none in what stands there then. -/
def FileSystem.LeadsApart (fs : FileSystem) (p directory : Path) : Prop :=
  ∃ place, (fs.without directory).place p = .ok place ∧
    ∀ renewed top, fs.Renews directory renewed → renewed.place directory = .ok top → ¬ top <+: place

namespace FileSystem

variable {fs fs' renewed : FileSystem} {p directory : Path} {place top q : Place}

/-- In a directory that is settled and made anew stands no link. -/
theorem Renews.noLink (written : directory.isEmpty = false) (settled : (fs.without directory).IsSettled directory)
    (renews : fs.Renews directory renewed) (found : renewed.place directory = .ok top) (below : top <+: q) :
    renewed.NoLink q := by
  obtain ⟨top', empty⟩ := renews.leadsToEmpty written settled
  cases Except.ok.inj (found.symm.trans empty.found)
  intro target entry
  cases empty.eq_directory below entry

/-- **Apart from a settled directory is all that it does not name.** -/
theorem leadsApart_of_settled (written : directory.isEmpty = false)
    (settled : (fs.without directory).IsSettled directory) (file : (fs.without directory).isFile p = true) :
    fs.LeadsApart p directory := by
  obtain ⟨place, content, executable, led, entry⟩ := isFile_iff.mp file
  refine ⟨place, place_eq_ok.mpr led, fun renewed top renews found below => ?_⟩
  obtain ⟨top', empty⟩ := renews.leadsToEmpty written settled
  cases Except.ok.inj (found.symm.trans empty.found)
  have there := renews.within.kind (kind?_eq_file.mpr entry)
  cases empty.eq_directory below there

/-- **A file system has all that is apart from a directory that is made anew:** all that its path does not name, except
for files in what stands there then. -/
def SparesApart (fs : FileSystem) (directory : Path) (fs' : FileSystem) : Prop :=
  (fs.without directory).Spares fs' fun q =>
    ∃ renewed top, fs.Renews directory renewed ∧ renewed.place directory = .ok top ∧ top <+: q

/-- What only comes to a file system spares all of it. -/
theorem SparesApart.of_within (more : (fs.without directory).Within fs') : fs.SparesApart directory fs' := more.spares

/-- **What is done below a directory that is made anew** spares all that is apart from it. -/
theorem SparesApart.of_grown (renews : fs.Renews directory renewed) (found : renewed.place directory = .ok top)
    (grown : Bundle.Grown renewed top fs') : fs.SparesApart directory fs' := by
  refine renews.within.trans_spares ⟨grown.more.workPlace, fun entry spared => ?_⟩
  refine grown.more.kind entry fun content executable file below => ?_
  exact spared content executable file ⟨renewed, top, renews, found, below⟩

end FileSystem

namespace Packager

variable {p : Packager} {s : Session} {parse : String → Except ParseError (List ImportLine)}
  {roots : List Path} {entry target : Path} {answer : Except CollectError Unit} {found : Discovery}

/-- **Collecting tells what the walk tells,** and fails as the walk does. -/
theorem outcome_collect
    (collected : Sources.collect ⟨s.files, roots, parse, p.classify⟩ entry = (answer, found)) :
    (p.collect parse roots entry).outcome s =
      ((answer.map fun _ => found).mapError .collect, { s with log := s.log ++ found.log }) := by
  unfold collect
  rw [Step.outcome_files_bind, collected]
  cases answer <;> rfl

/-- **A run spares what is apart from its bundle,** whether it succeeds or fails. -/
theorem sparesApart_package (host : Host) (metadata : RunMetadata)
    (located : Config.absolute s.files p.config.entryFile = .ok entry)
    (rooted : p.config.searchRoots s.files = .ok roots)
    (exported : Config.absolute s.files p.config.exportDirectory = .ok target)
    (collected : Sources.collect ⟨s.files, roots, parse, p.classify⟩ entry = (answer, found))
    (proper : s.files.Proper)
    (free : ∀ renewed place, s.files.Renews target renewed → renewed.place target = .ok place →
      ∀ q, place <+: q → renewed.NoLink q)
    (inside : ∀ m ∈ found.modules, ∀ c ∈ m.relativePath.components, ∃ name, c = .name name)
    (stays : ∀ dependency ∈ p.config.installDependencies, ∀ architecture,
      p.config.architecture = some architecture →
        host.StaysBelow ⟨p.config.pip, Install.arguments target architecture dependency⟩ target) :
    s.files.SparesApart target ((p.package host parse metadata).outcome s).2.files := by
  have written : target.isEmpty = false := Path.isEmpty_of_isAbsolute (Config.isAbsolute_of_absolute exported)
  have start : s.files.SparesApart target s.files := .of_within (FileSystem.within_without s.files target)
  unfold package
  rw [Step.outcome_files_bind, Step.outcome_demand_bind located, Step.outcome_demand_bind exported,
    Step.outcome_demand_bind rooted]
  have gathered := outcome_collect collected
  cases answer with
  | error e =>
    rw [Step.outcome_bind_error gathered]
    exact start
  | ok u =>
    rw [Step.outcome_bind_ok gathered]
    refine Step.left_demand (P := s.files.SparesApart target) start fun filter _ => ?_
    let b : Bundle := ⟨target, filter.excludes⟩
    let t : Session := { s with log := s.log ++ found.log }
    let writing := b.emit found.modules p.config.additionalModules
    let adapted : Step PackageError (List Path) := ExceptT.adapt PackageError.bundle writing
    have emitted := Bundle.grown_emit (b := b) (s := t) p.config.additionalModules written proper free inside
    rcases emitted with ⟨⟨e, failed⟩, base⟩ | ⟨ground, place, renews, opens, grown⟩
    · have run : Step.outcome adapted t = (.error (.bundle e), (writing.outcome t).2) := by
        rw [Step.outcome_adapt, show (writing.outcome t).1 = _ from failed]
        rfl
      rw [Step.outcome_bind_error run]
      exact .of_within base
    · -- All that is done behind the copies is done below the directory.
      refine .of_grown renews opens.found (Step.Keeps.left_bind (S := fun _ => True) (fun copied => ?_) grown)
      refine (Bundle.keeps_install opens stays).bind fun installed _ => ?_
      dsimp only
      split
      · refine (Step.keeps_adapt (Bundle.keeps_manifest opens _ _)).map.bind fun _ _ => ?_
        exact Step.keeps_pure ⟨⟩
      · exact (Step.keeps_pure (Q := fun _ => True) ⟨⟩).bind fun _ _ => Step.keeps_pure ⟨⟩

/-- **A run keeps the sources that it finds,** whether it succeeds or fails: each one that is apart from the
directory of the bundle is there afterwards with the bytes that it had. The modules have names alone in their
relative paths, no link stands in the directory that is made anew, and whatever installs dependencies stays below
it. -/
theorem package_keeps_sources (host : Host) (parse : String → Except ParseError (List ImportLine))
    (metadata : RunMetadata) (p : Packager) (s : Session) {entry target : Path} {roots : List Path}
    {answer : Except CollectError Unit} {found : Discovery}
    (located : Config.absolute s.files p.config.entryFile = .ok entry)
    (rooted : p.config.searchRoots s.files = .ok roots)
    (exported : Config.absolute s.files p.config.exportDirectory = .ok target)
    (collected : Sources.collect ⟨s.files, roots, parse, p.classify⟩ entry = (answer, found))
    (proper : s.files.Proper)
    (free : ∀ renewed place, s.files.Renews target renewed → renewed.place target = .ok place →
      ∀ q, place <+: q → renewed.NoLink q)
    (inside : ∀ m ∈ found.modules, ∀ c ∈ m.relativePath.components, ∃ name, c = .name name)
    (stays : ∀ dependency ∈ p.config.installDependencies, ∀ architecture,
      p.config.architecture = some architecture →
        host.StaysBelow ⟨p.config.pip, Install.arguments target architecture dependency⟩ target) :
    ∀ m ∈ found.modules, s.files.LeadsApart m.absolutePath target → ∀ content,
      s.files.read m.absolutePath = .ok content →
        ((p.package host parse metadata).outcome s).2.files.read m.absolutePath = .ok content := by
  rintro m - ⟨place, there, apart⟩ content read
  have left := sparesApart_package host metadata located rooted exported collected proper free inside stays
  refine left.read there ?_ ((FileSystem.within_without s.files target).read_of_place there read)
  rintro ⟨renewed, top, renews, found, below⟩
  exact apart renewed top renews found below

/-! ## Scripts that are bundled into themselves -/

/-- A run for a script. -/
def ofScript (entry directory : String) : Packager where
  config := { entryFile := ⟨entry⟩, exportDirectory := ⟨directory⟩ }
  classify _ := .unknown

/-- A host that starts no program. -/
def idle : Host where
  searchPath := []
  run fs _ := (fs, .error .noSuchEntry)

/-- What is found from a script that imports nothing. -/
def foundFrom (fs : FileSystem) (entry : String) : Discovery :=
  (Sources.collect ⟨fs, [(Path.mk entry).parent?.getD ⟨"/"⟩], fun _ => .ok [], fun _ => .unknown⟩ ⟨entry⟩).2

/-- What is left by the run for a script that imports nothing. -/
def leftBy (fs : FileSystem) (entry directory : String) : FileSystem :=
  (((ofScript entry directory).package idle (fun _ => .ok []) default).outcome { files := fs }).2.files

/-- **A run destroys its script:** the configuration is valid, the script is found, and it is not read afterwards
as it was before. -/
def Destroys (fs : FileSystem) (entry directory : String) : Prop :=
  ((ofScript entry directory).config.validate fs).toOption = some () ∧
    (∃ m ∈ (foundFrom fs entry).modules, m.absolutePath = ⟨entry⟩) ∧
    ((leftBy fs entry directory).read ⟨entry⟩).toOption ≠ (fs.read ⟨entry⟩).toOption

instance (fs : FileSystem) (entry directory : String) : Decidable (Destroys fs entry directory) :=
  inferInstanceAs (Decidable (_ ∧ _ ∧ _))

/-- A script in a directory. -/
def scriptAlone : FileSystem := { entries := [("app", .directory [("main.py", .file "x = 1\n".toUTF8 false)])] }

/-- A script in a directory, and in another one a link to it. -/
def scriptLinked : FileSystem where
  entries := [("app", .directory [("main.py", .link "/src/main.py")]),
    ("src", .directory [("main.py", .file "x = 1\n".toUTF8 false)])]

/-- **Scripts are destroyed** in the directory that is removed, in one that the path only leads to when a missing
directory is made, and through a link that stands there. -/
theorem selfExport_destroys :
    Destroys scriptAlone "/app/main.py" "/app" ∧ Destroys scriptAlone "/app/main.py" "/new/../app" ∧
      Destroys scriptLinked "/src/main.py" "/new/../app" := by decide +kernel

/-- Beside the directory of its bundle a script stays as it is. -/
theorem package_keeps_sources_beside :
    ((leftBy scriptAlone "/app/main.py" "/out").read ⟨"/app/main.py"⟩).toOption = some "x = 1\n".toUTF8 := by
  have located : Config.absolute scriptAlone ⟨"/app/main.py"⟩ = .ok ⟨"/app/main.py"⟩ :=
    Sources.eq_ok_of_toOption (by decide +kernel)
  have exported : Config.absolute scriptAlone ⟨"/out"⟩ = .ok ⟨"/out"⟩ :=
    Sources.eq_ok_of_toOption (by decide +kernel)
  have rooted : (ofScript "/app/main.py" "/out").config.searchRoots scriptAlone =
      .ok [(Path.mk "/app/main.py").parent?.getD ⟨"/"⟩] := Sources.eq_ok_of_toOption (by decide +kernel)
  have settled : (scriptAlone.without ⟨"/out"⟩).IsSettled ⟨"/out"⟩ := .inl (by decide +kernel)
  have written : (Path.mk "/out").isEmpty = false := by decide
  have modules : (foundFrom scriptAlone "/app/main.py").modules = [.entry ⟨"/app/main.py"⟩] := by decide +kernel
  have inside : ∀ m ∈ (foundFrom scriptAlone "/app/main.py").modules,
      ∀ c ∈ m.relativePath.components, ∃ name, c = .name name := by
    rw [modules]
    intro m mem c step
    cases List.mem_singleton.mp mem
    exact ⟨"main.py", List.mem_singleton.mp step⟩
  have apart : scriptAlone.LeadsApart ⟨"/app/main.py"⟩ ⟨"/out"⟩ :=
    FileSystem.leadsApart_of_settled written settled (by decide +kernel)
  have read : scriptAlone.read ⟨"/app/main.py"⟩ = .ok "x = 1\n".toUTF8 :=
    Sources.eq_ok_of_toOption (by decide +kernel)
  have mem : LocalModule.entry ⟨"/app/main.py"⟩ ∈ (foundFrom scriptAlone "/app/main.py").modules := by
    rw [modules]
    exact List.mem_cons_self
  have collected : Sources.collect ⟨scriptAlone, [(Path.mk "/app/main.py").parent?.getD ⟨"/"⟩], fun _ => .ok [],
      fun _ => .unknown⟩ ⟨"/app/main.py"⟩ = (_, foundFrom scriptAlone "/app/main.py") := (Prod.eta _).symm
  have kept := package_keeps_sources idle (fun _ => .ok []) default (ofScript "/app/main.py" "/out")
    { files := scriptAlone } located rooted exported collected
    (FileSystem.proper_of_all (by decide +kernel))
    (fun renewed top renews found q below => renews.noLink written settled found below) inside nofun _ mem apart _ read
  exact congrArg Except.toOption kept

end Packager

end PyBundle
