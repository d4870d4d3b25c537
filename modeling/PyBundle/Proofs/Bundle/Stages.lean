import PyBundle.Proofs.Bundle.Frame
import PyBundle.Proofs.Bundle.Roots

/-!
# Where a run stops

A run that fails stops in one of its stages, and what it leaves is what that stage has left (`Packager.Stops`). Before
the bundle is written nothing has changed and no program was started. The bundle and the manifest are written without
programs. Between them the dependencies are installed one by one, and the first call that does not do it is the last
one.

What a checked configuration refuses afterwards is a search path that is empty, and nothing else.
-/

namespace PyBundle

open Syntax (ParseError)

/-! ## What starts no program -/

namespace Bundle

variable {b : Bundle}

theorem startsNothing_create (p : Path) : (create p).StartsNothing := Step.startsNothing_change

theorem startsNothing_createParent (p : Path) : (createParent p).StartsNothing := by
  unfold createParent
  split
  · exact startsNothing_create _
  · exact Step.startsNothing_pure

theorem startsNothing_copyFile (source target : Path) : (copyFile source target).StartsNothing :=
  Step.startsNothing_change

theorem startsNothing_reset (b : Bundle) : b.reset.StartsNothing := by
  intro s
  rw [outcome_reset]
  exact (Step.startsNothing_change.bind fun _ => startsNothing_create _) s

theorem startsNothing_copyModule (b : Bundle) (m : LocalModule) : (b.copyModule m).StartsNothing := by
  unfold copyModule
  exact (startsNothing_createParent _).bind fun _ => (startsNothing_copyFile _ _).bind fun _ => Step.startsNothing_note

theorem startsNothing_copyEntry (destination : Path) (fuel : Nat) (ancestors : List Path) (source relative : Path)
    (n : Node) : (b.copyEntry destination fuel ancestors source relative n).StartsNothing := by
  induction fuel generalizing ancestors source relative n with
  | zero => exact Step.startsNothing_throw
  | succ fuel ih =>
    unfold copyEntry
    refine Step.startsNothing_files.bind fun fs => Step.startsNothing_demand.bind fun isDirectory => ?_
    split
    · exact Step.startsNothing_pure
    · dsimp only
      split
      · refine (startsNothing_create _).bind fun _ => Step.startsNothing_files.bind fun fs => ?_
        refine Step.startsNothing_demand.bind fun entries => Step.startsNothing_forM fun name _ => ?_
        split
        · exact ih _ _ _ _
        · exact Step.startsNothing_pure
      · exact (startsNothing_createParent _).bind fun _ => startsNothing_copyFile _ _

theorem startsNothing_copyTree (b : Bundle) (source destination : Path) :
    (b.copyTree source destination).StartsNothing := by
  unfold copyTree
  refine Step.startsNothing_files.bind fun fs => ?_
  split
  · exact Step.startsNothing_throw_bind
  · refine Step.startsNothing_demand.bind fun entry => ?_
    exact (startsNothing_copyEntry _ _ _ _ _ _).bind fun _ => Step.startsNothing_note

theorem startsNothing_copyAdditional (b : Bundle) (p : Path) : (b.copyAdditional p).StartsNothing := by
  unfold copyAdditional
  refine Step.startsNothing_files.bind fun fs => ?_
  split
  · exact Step.startsNothing_note.bind fun _ => Step.startsNothing_pure
  · refine Step.startsNothing_demand.bind fun source => ?_
    split
    · exact Step.startsNothing_note.bind fun _ => Step.startsNothing_pure
    · exact (startsNothing_copyTree _ _ _).bind fun _ => Step.startsNothing_pure

/-- **A bundle is written without programs.** -/
theorem startsNothing_emit (b : Bundle) (modules : List LocalModule) (additional : List Path) :
    (b.emit modules additional).StartsNothing := by
  unfold emit
  refine (startsNothing_reset b).bind fun _ => ?_
  refine (Step.startsNothing_forM fun m _ => startsNothing_copyModule b m).bind fun _ => ?_
  exact Step.startsNothing_filterMapM fun p _ => startsNothing_copyAdditional b p

end Bundle

/-! ## Installing -/

/-- What calls leave, one after another. -/
def Host.after (host : Host) (fs : FileSystem) (calls : List Call) : FileSystem :=
  calls.foldl (fun fs call => (host.run fs call).1) fs

theorem Host.after_concat (host : Host) (fs : FileSystem) (calls : List Call) (c : Call) :
    host.after fs (calls ++ [c]) = (host.run (host.after fs calls) c).1 := by
  unfold Host.after
  rw [List.foldl_append]
  rfl

namespace Install

variable {host : Host} {pip : String} {target : Path} {architecture : Architecture} {dependency : String}
  {dependencies : List String} {s t : Session} {e : InstallError} {n : Nat}

/-- The call that installs a dependency. -/
def call (pip : String) (target : Path) (architecture : Architecture) (dependency : String) : Call :=
  ⟨pip, arguments target architecture dependency⟩

/-- **A call has not installed a dependency:** it could not be started, or it has not ended well. -/
inductive Refused (pip dependency : String) : Except Fault Finished → InstallError → Prop
  | notStarted (f : Fault) : Refused pip dependency (.error f) (.notStarted pip f)
  | failed (finished : Finished) (bad : finished.succeeded = false) : Refused pip dependency (.ok finished)
      (.failed dependency finished.shownCode (Finished.shownText finished.everything))

/-- **Dependencies are installed in turn:** each call ends well in what the calls before it have left. -/
def Installs (host : Host) (fs : FileSystem) (calls : List Call) : Prop :=
  ∀ before c after, calls = before ++ c :: after →
    ∃ finished, (host.run (host.after fs before) c).2 = .ok finished ∧ finished.succeeded = true

theorem installs_nil (fs : FileSystem) : Installs host fs [] := by
  intro before c after split
  cases (List.append_eq_nil_iff.mp split.symm).2

theorem Installs.cons {fs : FileSystem} {c : Call} {calls : List Call} {finished : Finished}
    (first : (host.run fs c).2 = .ok finished) (well : finished.succeeded = true)
    (rest : Installs host (host.run fs c).1 calls) : Installs host fs (c :: calls) := by
  intro before c' after split
  cases before with
  | nil =>
    cases split
    exact ⟨finished, first, well⟩
  | cons d before =>
    cases split
    exact rest before c' after rfl

/-- An installation that comes to its end is one call that ends well. -/
theorem runs_one (run : (one host pip target architecture dependency).Runs s () t) :
    ∃ finished, (host.run s.files (call pip target architecture dependency)).2 = .ok finished ∧
      finished.succeeded = true ∧
      t.files = (host.run s.files (call pip target architecture dependency)).1 ∧
      t.calls = s.calls ++ [call pip target architecture dependency] := by
  unfold one at run
  obtain ⟨_, m, noted, run⟩ := Step.runs_bind.mp run
  cases Step.runs_note.mp noted
  obtain ⟨finished, m', started, run⟩ := Step.runs_bind.mp run
  obtain ⟨answer, rfl⟩ := Step.runs_start.mp started
  split at run
  · exact absurd run Step.not_runs_throw
  · rename_i well
    obtain ⟨-, rfl⟩ := Step.runs_pure.mp run
    exact ⟨finished, answer, by simpa using well, rfl, rfl⟩

/-- An installation that fails is one call that has not installed the dependency. -/
theorem fails_one (failed : (one host pip target architecture dependency).Fails s e t) :
    Refused pip dependency (host.run s.files (call pip target architecture dependency)).2 e ∧
      t.files = (host.run s.files (call pip target architecture dependency)).1 ∧
      t.calls = s.calls ++ [call pip target architecture dependency] := by
  unfold one at failed
  rcases Step.fails_bind.mp failed with impossible | ⟨_, m, noted, failed⟩
  · cases impossible
  cases Step.runs_note.mp noted
  rcases Step.fails_bind.mp failed with unstarted | ⟨finished, m', started, failed⟩
  · obtain ⟨f, answer, rfl, rfl⟩ := Step.fails_start.mp unstarted
    refine ⟨?_, rfl, rfl⟩
    rw [show (host.run s.files (call pip target architecture dependency)).2 = .error f from answer]
    exact .notStarted f
  · obtain ⟨answer, rfl⟩ := Step.runs_start.mp started
    split at failed
    · rename_i bad
      obtain ⟨rfl, rfl⟩ := Step.fails_throw.mp failed
      refine ⟨?_, rfl, rfl⟩
      rw [show (host.run s.files (call pip target architecture dependency)).2 = .ok finished from answer]
      exact .failed finished (by simpa using bad)
    · exact absurd failed Step.not_fails_pure

/-- **Installations that come to their end** are one call for each dependency, in turn. -/
theorem runs_forM_one (run : (dependencies.forM (one host pip target architecture)).Runs s () t) :
    Installs host s.files (dependencies.map (call pip target architecture)) ∧
      t.files = host.after s.files (dependencies.map (call pip target architecture)) ∧
      t.calls = s.calls ++ dependencies.map (call pip target architecture) := by
  induction dependencies generalizing s with
  | nil =>
    cases Step.runs_forM_nil.mp run
    exact ⟨installs_nil _, rfl, (List.append_nil _).symm⟩
  | cons dependency dependencies ih =>
    obtain ⟨m, first, later⟩ := Step.runs_forM_cons.mp run
    obtain ⟨finished, answer, well, files, calls⟩ := runs_one first
    obtain ⟨installed, files', calls'⟩ := ih later
    rw [files] at installed files'
    refine ⟨installed.cons answer well, files', ?_⟩
    rw [calls', calls, List.map_cons, List.append_assoc, List.singleton_append]

/-- **Installations that fail** are one call for each dependency up to the one that is not installed. -/
theorem fails_all (failed : (all host pip target architecture dependencies).Fails s e t) :
    ∃ before dependency after, dependencies = before ++ dependency :: after ∧
      Installs host s.files (before.map (call pip target architecture)) ∧
      Refused pip dependency (host.run (host.after s.files (before.map (call pip target architecture)))
        (call pip target architecture dependency)).2 e ∧
      t.files = host.after s.files ((before ++ [dependency]).map (call pip target architecture)) ∧
      t.calls = s.calls ++ (before ++ [dependency]).map (call pip target architecture) := by
  unfold all at failed
  rcases Step.fails_bind.mp failed with loop | ⟨_, m, -, ended⟩
  · obtain ⟨before, dependency, after, m, split, run, last⟩ := Step.exists_of_fails_forM loop
    obtain ⟨installed, files, calls⟩ := runs_forM_one run
    obtain ⟨refused, files', calls'⟩ := fails_one last
    rw [files] at refused files'
    refine ⟨before, dependency, after, split, installed, refused, ?_, ?_⟩
    · rw [files', List.map_append, List.map_singleton, Host.after_concat]
    · rw [calls', calls, List.map_append, List.append_assoc]
      rfl
  · exact absurd ended Step.not_fails_pure

end Install

/-! ## What is refused -/

namespace Config

variable {c : Config} {fs fs' : FileSystem} {p : Path} {e : ConfigError}

/-- A path that has no absolute form is empty. -/
theorem absolute_eq_error (failed : Config.absolute fs p = .error e) : p.isEmpty = true ∧ e = .fault .emptyPath := by
  unfold Config.absolute FileSystem.absolute Path.absolute? at failed
  cases empty : p.isEmpty with
  | true =>
    rw [empty] at failed
    cases failed
    exact ⟨rfl, rfl⟩
  | false =>
    rw [empty] at failed
    cases failed

/-- Paths that have no absolute forms. -/
theorem mapM_absolute_eq_error {paths : List Path} (failed : paths.mapM (Config.absolute fs) = .error e) :
    (∃ p ∈ paths, p.isEmpty = true) ∧ e = .fault .emptyPath := by
  induction paths with
  | nil => cases failed
  | cons p paths ih =>
    rw [List.mapM_cons] at failed
    cases first : Config.absolute fs p with
    | error e' =>
      rw [first] at failed
      cases failed
      obtain ⟨empty, rfl⟩ := absolute_eq_error first
      exact ⟨⟨p, List.mem_cons_self, empty⟩, rfl⟩
    | ok q =>
      cases rest : paths.mapM (Config.absolute fs) with
      | error e' =>
        rw [first, rest] at failed
        cases failed
        obtain ⟨⟨p', mem, empty⟩, rfl⟩ := ih rest
        exact ⟨⟨p', List.mem_cons_of_mem p mem, empty⟩, rfl⟩
      | ok made =>
        rw [first, rest] at failed
        cases failed

/-- **What a configuration that can be used is like:** its entry and its directory are not empty, there is a machine to
install for, and its globs can be read. -/
structure Usable (c : Config) : Prop where
  entry : c.entryFile.isEmpty = false
  directory : c.exportDirectory.isEmpty = false
  architecture : c.installDependencies ≠ [] → c.architecture ≠ none
  filter : ∃ filter, c.filter = .ok filter

theorem usable_of_validate (valid : c.validate fs = .ok ()) : c.Usable := by
  unfold validate at valid
  split at valid
  · cases valid
  split at valid
  · cases valid
  split at valid
  · cases valid
  rename_i file directory architecture
  refine ⟨?_, Bool.eq_false_iff.mpr directory, fun some none => architecture ?_, ?_⟩
  · obtain ⟨place, _, _, leads, -⟩ := FileSystem.isFile_iff.mp (by simpa using file)
    exact (FileSystem.resolve_eq_ok.mp leads).2.1
  · simp [some, none]
  · cases made : c.filter with
    | error e =>
      rw [made] at valid
      cases valid
    | ok filter => exact ⟨filter, rfl⟩

/-- **The search roots of a configuration that can be used** are only refused for an empty search path. -/
theorem Usable.searchRoots_eq_error (usable : c.Usable) (failed : c.searchRoots fs = .error e) :
    (∃ p ∈ c.searchPaths, p.isEmpty = true) ∧ e = .fault .emptyPath := by
  unfold searchRoots at failed
  cases located : Config.absolute fs c.entryFile with
  | error e' => cases usable.entry.symm.trans (absolute_eq_error located).1
  | ok entry =>
    rw [located] at failed
    cases made : c.searchPaths.mapM (Config.absolute fs) with
    | error e' =>
      rw [made] at failed
      cases failed
      exact mapM_absolute_eq_error made
    | ok roots =>
      rw [made] at failed
      cases failed

end Config

/-! ## The stages -/

namespace Packager

variable {host : Host} {parse : String → Except ParseError (List ImportLine)} {metadata : RunMetadata} {p : Packager}
  {s t : Session} {e : PackageError}

/-- **A run that may start:** its configuration has been checked, with either kind of classification. -/
inductive Accepted (p : Packager) : Prop
  | indexed {host : Host} {config : Config} {s t : Session} (run : (new host config).Runs s p t)
  | classified {config : Config} {classify : String → Classification} {s t : Session}
      (run : (withClassification config classify).Runs s p t)

theorem Accepted.usable (accepted : p.Accepted) : p.config.Usable := by
  cases accepted with
  | indexed run =>
    obtain ⟨u, valid, run⟩ := Step.runs_demand_bind.mp (Step.runs_files_bind.mp run)
    obtain ⟨index, m, -, ended⟩ := Step.runs_bind.mp run
    obtain ⟨rfl, -⟩ := Step.runs_pure.mp ended
    exact Config.usable_of_validate valid
  | classified run =>
    obtain ⟨u, valid, run⟩ := Step.runs_demand_bind.mp (Step.runs_files_bind.mp run)
    obtain ⟨rfl, -⟩ := Step.runs_pure.mp run
    exact Config.usable_of_validate valid

/-- **A run is ready to write:** it knows where its bundle is written and what has been found. So far it has only told
things. -/
inductive Ready (parse : String → Except ParseError (List ImportLine)) (p : Packager) (s : Session) :
    Bundle → Discovery → Session → Prop
  | intro {entry target : Path} {roots : List Path} {found : Discovery} {filter : Glob.Filter}
      (located : Config.absolute s.files p.config.entryFile = .ok entry)
      (exported : Config.absolute s.files p.config.exportDirectory = .ok target)
      (rooted : p.config.searchRoots s.files = .ok roots)
      (collected : Sources.collect ⟨s.files, roots, parse, p.classify⟩ entry = (.ok (), found))
      (filtered : p.config.filter = .ok filter) :
      Ready parse p s ⟨target, filter.excludes⟩ found { s with log := s.log ++ found.log }

/-- **Where a run stops** that fails, and what it has left then. -/
inductive Stops (host : Host) (parse : String → Except ParseError (List ImportLine)) (p : Packager) (s : Session) :
    PackageError → Session → Prop
  /-- A path of the configuration is empty. -/
  | configuring (empty : ∃ q ∈ p.config.searchPaths, q.isEmpty = true) :
      Stops host parse p s (.config (.fault .emptyPath)) s
  /-- A module is not collected. -/
  | collecting (e : CollectError) (log : Log) : Stops host parse p s (.collect e) { s with log }
  /-- The bundle is not written. -/
  | writing {b : Bundle} {found : Discovery} {m t : Session} {e : BundleError} (ready : p.Ready parse s b found m)
      (failed : (b.emit found.modules p.config.additionalModules).Fails m e t) : Stops host parse p s (.bundle e) t
  /-- A dependency is not installed into the bundle that has been written. -/
  | installing {b : Bundle} {found : Discovery} {m m' t : Session} {copied : List Path} {architecture : Architecture}
      {e : InstallError} (ready : p.Ready parse s b found m)
      (emitted : (b.emit found.modules p.config.additionalModules).Runs m copied m')
      (for_ : p.config.architecture = some architecture)
      (failed : (Install.all host p.config.pip b.directory architecture p.config.installDependencies).Fails m' e t) :
      Stops host parse p s (.install e) t
  /-- The manifest is not written. -/
  | listing {b : Bundle} {found : Discovery} {m m' n t : Session} {copied : List Path} {installed : Nat}
      {e : BundleError} (ready : p.Ready parse s b found m)
      (emitted : (b.emit found.modules p.config.additionalModules).Runs m copied m')
      (done : (install host p.config b.directory).Runs m' installed n)
      (failed : (Manifest.write b found.sortedExternal p.config.extraRequirements).Fails n e t) :
      Stops host parse p s (.bundle e) t

/-- A run that installs comes to its end, or it fails at a dependency if there is a machine to install for. -/
theorem fails_install {target : Path} (machine : p.config.installDependencies ≠ [] → p.config.architecture ≠ none)
    (failed : (install host p.config target).Fails s e t) :
    ∃ architecture d, p.config.architecture = some architecture ∧ e = .install d ∧
      (Install.all host p.config.pip target architecture p.config.installDependencies).Fails s d t := by
  unfold install at failed
  split at failed
  · exact absurd failed Step.not_fails_pure
  · rename_i some
    split at failed
    · rename_i none
      exact absurd none (machine (by simpa using some))
    · rename_i architecture for_
      obtain ⟨d, failed', rfl⟩ := Step.fails_adapt.mp failed
      exact ⟨architecture, d, for_, rfl, failed'⟩

/-- **A run that fails stops in one of its stages.** -/
theorem stops_of_fails (usable : p.config.Usable) (failed : (p.package host parse metadata).Fails s e t) :
    p.Stops host parse s e t := by
  unfold package at failed
  have failed := Step.fails_files_bind.mp failed
  rcases Step.fails_demand_bind.mp failed with ⟨d, located, -, -⟩ | ⟨entry, located, failed⟩
  · cases usable.entry.symm.trans (Config.absolute_eq_error located).1
  rcases Step.fails_demand_bind.mp failed with ⟨d, exported, -, -⟩ | ⟨target, exported, failed⟩
  · cases usable.directory.symm.trans (Config.absolute_eq_error exported).1
  rcases Step.fails_demand_bind.mp failed with ⟨d, rooted, rfl, rfl⟩ | ⟨roots, rooted, failed⟩
  · obtain ⟨empty, rfl⟩ := usable.searchRoots_eq_error rooted
    exact .configuring empty
  rcases collected : Sources.collect ⟨s.files, roots, parse, p.classify⟩ entry with ⟨answer, found⟩
  have gathered := outcome_collect collected
  cases answer with
  | error d =>
    unfold Step.Fails at failed
    rw [Step.outcome_bind_error gathered] at failed
    cases failed
    exact .collecting d _
  | ok u =>
    unfold Step.Fails at failed
    rw [Step.outcome_bind_ok gathered] at failed
    obtain ⟨filter, filtered⟩ := usable.filter
    have ready : p.Ready parse s ⟨target, filter.excludes⟩ found { s with log := s.log ++ found.log } :=
      .intro located exported rooted collected filtered
    rcases Step.fails_demand_bind.mp failed with ⟨d, unread, -, -⟩ | ⟨filter', filtered', failed⟩
    · cases filtered.symm.trans unread
    cases filtered.symm.trans filtered'
    rcases Step.fails_bind.mp failed with adapted | ⟨copied, m', emitted, failed⟩
    · obtain ⟨d, unwritten, rfl⟩ := Step.fails_adapt.mp adapted
      exact .writing ready unwritten
    have emitted := Step.runs_adapt.mp emitted
    rcases Step.fails_bind.mp failed with uninstalled | ⟨installed, n, done, failed⟩
    · obtain ⟨architecture, d, for_, rfl, failed'⟩ := fails_install usable.architecture uninstalled
      exact .installing ready emitted for_ failed'
    -- The manifest is the last thing that a run may fail at.
    · dsimp only at failed
      split at failed
      · rw [map_eq_pure_bind] at failed
        rcases Step.fails_bind.mp failed with written | ⟨_, _, -, impossible⟩
        · rcases Step.fails_bind.mp written with adapted | ⟨_, _, -, impossible⟩
          · obtain ⟨d, unlisted, rfl⟩ := Step.fails_adapt.mp adapted
            exact .listing ready emitted done unlisted
          · exact absurd impossible Step.not_fails_pure
        · exact absurd impossible Step.not_fails_pure
      · rcases Step.fails_bind.mp failed with impossible | ⟨_, _, -, impossible⟩
        · exact absurd impossible Step.not_fails_pure
        · exact absurd impossible Step.not_fails_pure

/-- A run that is ready to write ends as the writing does, if that fails. -/
theorem fails_of_emit {b : Bundle} {found : Discovery} {m : Session} {d : BundleError}
    (ready : p.Ready parse s b found m)
    (failed : (b.emit found.modules p.config.additionalModules).Fails m d t) :
    (p.package host parse metadata).Fails s (.bundle d) t := by
  cases ready with
  | @intro entry target roots found filter located exported rooted collected filtered =>
    unfold package
    refine Step.fails_files_bind.mpr (Step.fails_demand_bind.mpr (.inr ⟨entry, located, ?_⟩))
    refine Step.fails_demand_bind.mpr (.inr ⟨target, exported, ?_⟩)
    refine Step.fails_demand_bind.mpr (.inr ⟨roots, rooted, ?_⟩)
    refine Step.fails_bind.mpr (.inr ⟨found, { s with log := s.log ++ found.log }, outcome_collect collected, ?_⟩)
    refine Step.fails_demand_bind.mpr (.inr ⟨filter, filtered, ?_⟩)
    exact Step.fails_bind.mpr (.inl (Step.fails_adapt.mpr ⟨d, failed, rfl⟩))

theorem Ready.files {b : Bundle} {found : Discovery} {m : Session} (ready : p.Ready parse s b found m) :
    m.files = s.files ∧ m.calls = s.calls := by
  cases ready
  exact ⟨rfl, rfl⟩

/-- Writes the manifest of a bundle, if the configuration asks for it. -/
def list? (p : Packager) (b : Bundle) (found : Discovery) : Step PackageError (Option Path) :=
  if p.config.generateManifest then
    some <$> (Manifest.write b found.sortedExternal p.config.extraRequirements).adapt .bundle
  else pure none

/-- **The stages of a run that comes to its end,** and what it answers with. -/
theorem exists_stages_of_runs {outcome : Outcome} (run : (p.package host parse metadata).Runs s outcome t) :
    ∃ b found m copied m' installed n, p.Ready parse s b found m ∧
      (b.emit found.modules p.config.additionalModules).Runs m copied m' ∧
      (install host p.config b.directory).Runs m' installed n ∧
      (p.list? b found).Runs n outcome.report.manifest t ∧
      outcome.result = .succeeded p.config.exportDirectory.normalize.text ∧
      outcome.report.externalModules = found.sortedExternal := by
  unfold package at run
  have run := Step.runs_files_bind.mp run
  obtain ⟨entry, located, run⟩ := Step.runs_demand_bind.mp run
  obtain ⟨target, exported, run⟩ := Step.runs_demand_bind.mp run
  obtain ⟨roots, rooted, run⟩ := Step.runs_demand_bind.mp run
  rcases collected : Sources.collect ⟨s.files, roots, parse, p.classify⟩ entry with ⟨answer, found⟩
  have gathered := outcome_collect collected
  obtain ⟨found', m, walked, run⟩ := Step.runs_bind.mp run
  cases answer with
  | error e => cases walked.symm.trans gathered
  | ok done =>
    cases walked.symm.trans gathered
    obtain ⟨filter, filtered, run⟩ := Step.runs_demand_bind.mp run
    obtain ⟨copied, m', emitted, run⟩ := Step.runs_bind.mp run
    obtain ⟨installed, n, done, run⟩ := Step.runs_bind.mp run
    refine ⟨⟨target, filter.excludes⟩, found, { s with log := s.log ++ found.log }, copied, m', installed, n,
      .intro located exported rooted collected filtered, Step.runs_adapt.mp emitted, done, ?_⟩
    -- A manifest is written or not, and the outcome is the same but for the path of the manifest.
    unfold list?
    dsimp only at run
    split at run <;> rename_i asked
    all_goals
      obtain ⟨manifest, n', listed, ended⟩ := Step.runs_bind.mp run
      obtain ⟨rfl, rfl⟩ := Step.runs_pure.mp ended
    · exact ⟨by rwa [if_pos asked], rfl, rfl⟩
    · exact ⟨by rwa [if_neg asked], rfl, rfl⟩

/-- A run that comes to its end has written the bundle, and the result names the normal form of the path that the
configuration has for it. -/
theorem exists_ready_of_runs {outcome : Outcome} (run : (p.package host parse metadata).Runs s outcome t) :
    ∃ b found m copied m', p.Ready parse s b found m ∧
      (b.emit found.modules p.config.additionalModules).Runs m copied m' ∧
      outcome.result = .succeeded p.config.exportDirectory.normalize.text := by
  obtain ⟨b, found, m, copied, m', -, -, ready, emitted, -, -, result, -⟩ := exists_stages_of_runs run
  exact ⟨b, found, m, copied, m', ready, emitted, result⟩

/-- **What a run that fails has done,** by the stage at which it stops. A configuration that has been checked and a
module that is not collected leave everything as it is, and of the configuration only an empty path is refused then.
If the bundle is not written, the run ends there, and no program was started. If a dependency is not installed, then
the bundle has been written, each dependency up to that one was called for once and in turn, and the calls have done
all that was done since. -/
theorem package_stages (host : Host) (parse : String → Except ParseError (List ImportLine)) (metadata : RunMetadata)
    {p : Packager} (accepted : p.Accepted) (s : Session) :
    (∀ e t, (p.package host parse metadata).Fails s (.config e) t →
      t.files = s.files ∧ t.calls = s.calls ∧ e ≠ .missingArchitecture ∧ ∀ glob reason, e ≠ .badGlob glob reason) ∧
    (∀ e t, (p.package host parse metadata).Fails s (.collect e) t → t.files = s.files ∧ t.calls = s.calls) ∧
    (∀ b found m e t, p.Ready parse s b found m → (b.emit found.modules p.config.additionalModules).Fails m e t →
      (p.package host parse metadata).Fails s (.bundle e) t ∧ t.calls = s.calls) ∧
    ∀ e t, (p.package host parse metadata).Fails s (.install e) t →
      ∃ b found m copied m' architecture before dependency after,
        p.Ready parse s b found m ∧ (b.emit found.modules p.config.additionalModules).Runs m copied m' ∧
        p.config.architecture = some architecture ∧
        p.config.installDependencies = before ++ dependency :: after ∧
        Install.Installs host m'.files (before.map (Install.call p.config.pip b.directory architecture)) ∧
        Install.Refused p.config.pip dependency
          (host.run (host.after m'.files (before.map (Install.call p.config.pip b.directory architecture)))
            (Install.call p.config.pip b.directory architecture dependency)).2 e ∧
        t.files = host.after m'.files
          ((before ++ [dependency]).map (Install.call p.config.pip b.directory architecture)) ∧
        t.calls = s.calls ++ (before ++ [dependency]).map (Install.call p.config.pip b.directory architecture) := by
  refine ⟨fun e t failed => ?_, fun e t failed => ?_, fun b found m e t ready failed => ?_, fun e t failed => ?_⟩
  · cases stops_of_fails accepted.usable failed
    exact ⟨rfl, rfl, nofun, nofun⟩
  · cases stops_of_fails accepted.usable failed
    exact ⟨rfl, rfl⟩
  · refine ⟨fails_of_emit ready failed, ?_⟩
    rw [(Bundle.startsNothing_emit b _ _).calls_of_fails failed, ready.files.2]
  · cases stops_of_fails accepted.usable failed with
    | @installing b found m m' t copied architecture e ready emitted for_ failed =>
      obtain ⟨before, dependency, after, split, installed, refused, files, calls⟩ := Install.fails_all failed
      refine ⟨b, found, m, copied, m', architecture, before, dependency, after, ready, emitted, for_, split, installed,
        refused, files, ?_⟩
      rw [calls, (Bundle.startsNothing_emit b _ _).calls_of_runs emitted, ready.files.2]

/-- A host that has a distribution of one name. -/
def hasOnly (name : String) : Host where
  searchPath := []
  run fs call := (fs, .ok ⟨some (if call.arguments.getLast? = some name then 0 else 1), []⟩)

/-- The run for a script with three dependencies. -/
def ofThree : Packager where
  config := { entryFile := ⟨"/app/main.py"⟩, exportDirectory := ⟨"/out"⟩, architecture := some .arm64
              installDependencies := ["numpy", "pandas", "scipy"] }
  classify _ := .unknown

/-- What dependency a run has failed to install. -/
def refusedBy (answer : Except PackageError Outcome) : Option InstallError :=
  match answer with
  | .error (.install e) => some e
  | _ => none

/-- The second of three dependencies is not installed. -/
theorem package_stages_second :
    ∃ t b found m copied m' architecture before dependency after,
      (ofThree.package (hasOnly "numpy") (fun _ => .ok []) default).Fails { files := scriptAlone }
        (.install (.failed "pandas" 1 "")) t ∧
      t.calls.map (·.arguments.getLast?) = [some "numpy", some "pandas"] ∧
      ofThree.Ready (fun _ => .ok []) { files := scriptAlone } b found m ∧
      (b.emit found.modules ofThree.config.additionalModules).Runs m copied m' ∧
      ofThree.config.installDependencies = before ++ dependency :: after ∧
      t.files = (hasOnly "numpy").after m'.files
        ((before ++ [dependency]).map (Install.call ofThree.config.pip b.directory architecture)) ∧
      t.calls = (before ++ [dependency]).map (Install.call ofThree.config.pip b.directory architecture) := by
  have accepted : ofThree.Accepted := by
    have valid : ofThree.config.validate scriptAlone = .ok () := Sources.eq_ok_of_toOption (by decide +kernel)
    have run : (withClassification ofThree.config fun _ => .unknown).Runs { files := scriptAlone } ofThree
        { files := scriptAlone } :=
      Step.runs_files_bind.mpr (Step.runs_demand_bind.mpr ⟨(), valid, rfl⟩)
    exact .classified run
  generalize run : (ofThree.package (hasOnly "numpy") (fun _ => .ok []) default).outcome { files := scriptAlone } =
    ended
  have refused : refusedBy ended.1 = some (.failed "pandas" 1 "") := by
    rw [← run]
    decide +kernel
  have calls : ended.2.calls.map (·.arguments.getLast?) = [some "numpy", some "pandas"] := by
    rw [← run]
    decide +kernel
  obtain ⟨answer, t⟩ := ended
  unfold refusedBy at refused
  split at refused
  · rename_i e told
    cases refused
    cases told
    obtain ⟨b, found, m, copied, m', architecture, before, dependency, after, ready, emitted, -, split, -, -, files,
      made⟩ := (package_stages (hasOnly "numpy") (fun _ => .ok []) default accepted _).2.2.2 _ t run
    exact ⟨t, b, found, m, copied, m', architecture, before, dependency, after, run, calls, ready, emitted, split,
      files, made⟩
  · cases refused

end Packager

end PyBundle
