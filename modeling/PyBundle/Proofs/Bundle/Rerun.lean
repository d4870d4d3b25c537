import PyBundle.Proofs.Bundle.Frame
import PyBundle.Proofs.Collect.Same
import PyBundle.Proofs.FileSystem.Leftover

/-!
# Runs over an earlier bundle

What stands at the path of a bundle before a run does not show in the run: neither in its answer nor in what it
leaves (`package_ignores_leftovers`). The modules are found as without it if no import finds a file in it, and after
the reset the file systems are the same.

Where an import does find a file of the earlier bundle, or what stands there is not taken away by the reset, runs
differ (`leftovers_show`).
-/

namespace PyBundle

open Syntax (ParseError)
open FileSystem (Leftover)

namespace Step

variable {ε δ α β : Type} {s s' : Session} {a : α}

/-- **Two runs end alike:** with the same answer, and if they come to their end, in the same state. -/
def Alike (x : Step ε α) (s s' : Session) : Prop :=
  (x.outcome s).1 = (x.outcome s').1 ∧ ∀ a, (x.outcome s).1 = .ok a → (x.outcome s).2 = (x.outcome s').2

theorem alike_of_eq {x : Step ε α} (same : x.outcome s = x.outcome s') : x.Alike s s' := by
  unfold Alike
  rw [same]
  exact ⟨rfl, fun _ _ => rfl⟩

theorem Alike.symm {x : Step ε α} (alike : x.Alike s s') : x.Alike s' s :=
  ⟨alike.1.symm, fun a ended => (alike.2 a (alike.1.trans ended)).symm⟩

theorem Alike.trans {x : Step ε α} {s'' : Session} (first : x.Alike s s') (second : x.Alike s' s'') :
    x.Alike s s'' :=
  ⟨first.1.trans second.1, fun a ended => (first.2 a ended).trans (second.2 a (first.1.symm.trans ended))⟩

/-- An answer that a step cannot do without is the same in both runs. -/
theorem alike_demand {failure : δ → ε} {answer : Except δ α} {f : α → Step ε β}
    (onward : ∀ a, answer = .ok a → (f a).Alike s s') : (demand failure answer >>= f).Alike s s' := by
  unfold Alike
  rw [outcome_bind, outcome_bind, outcome_demand, outcome_demand]
  cases answer with
  | error d => exact ⟨rfl, nofun⟩
  | ok a => exact onward a rfl

end Step

namespace Packager

variable {host : Host} {parse : String → Except ParseError (List ImportLine)} {metadata : RunMetadata}
  {p : Packager} {s : Session} {ground fs fs' : FileSystem} {entry target : Path} {roots : List Path}

/-- **A reset takes away what was left** and starts from the file system without it. -/
theorem outcome_reset_leftover {b : Bundle} (leftover : Leftover ground b.directory fs) (plain : ground.Plain)
    (absolute : b.directory.isAbsolute = true) (vacant : ground.kind? b.directory.normalPlace = none)
    (ends : ∀ name, b.directory.steps.getLast? = some (.name name) →
      (FileSystem.dropSlashes b.directory).EndsInName) :
    b.reset.outcome { s with files := fs } = b.reset.outcome { s with files := ground } := by
  rw [Bundle.outcome_reset, Bundle.outcome_reset, Step.outcome_bind, Step.outcome_bind, Step.outcome_change,
    Step.outcome_change]
  dsimp only
  have without : Leftover ground b.directory ground := .nothing
  rw [leftover.clear_eq plain absolute vacant ends, without.clear_eq plain absolute vacant ends]

/-- A bundle is written over what was left as without it. -/
theorem outcome_emit_leftover {b : Bundle} (leftover : Leftover ground b.directory fs) (plain : ground.Plain)
    (absolute : b.directory.isAbsolute = true) (vacant : ground.kind? b.directory.normalPlace = none)
    (ends : ∀ name, b.directory.steps.getLast? = some (.name name) →
      (FileSystem.dropSlashes b.directory).EndsInName) (modules : List LocalModule) (additional : List Path) :
    (b.emit modules additional).outcome { s with files := fs } =
      (b.emit modules additional).outcome { s with files := ground } := by
  unfold Bundle.emit
  exact Step.outcome_bind_congr (outcome_reset_leftover leftover plain absolute vacant ends)

/-- Paths are made absolute in the directory in which relative paths start. -/
theorem absolute_congr (same : fs'.workPlace = fs.workPlace) : Config.absolute fs' = Config.absolute fs := by
  unfold Config.absolute FileSystem.absolute FileSystem.workPath
  rw [same]

theorem searchRoots_congr (same : fs'.workPlace = fs.workPlace) (c : Config) :
    c.searchRoots fs' = c.searchRoots fs := by
  unfold Config.searchRoots
  rw [absolute_congr same]

/-- **A run over what was left ends like a run without it.** -/
theorem alike_leftover (host : Host) (metadata : RunMetadata) (s : Session)
    (leftover : Leftover ground target fs) (plain : ground.Plain)
    (proper : ∀ name ∈ ground.workPlace, IsFileName name)
    (located : Config.absolute ground p.config.entryFile = .ok entry)
    (rooted : p.config.searchRoots ground = .ok roots)
    (exported : Config.absolute ground p.config.exportDirectory = .ok target)
    (vacant : ground.kind? target.normalPlace = none) (script : ground.isFile entry = true)
    (nothing : Sources.NothingNew ⟨ground, roots, parse, p.classify⟩ entry fs) :
    (p.package host parse metadata).Alike { s with files := fs } { s with files := ground } := by
  have more : ground.Within fs := leftover.within
  have absolute : target.isAbsolute = true := Config.isAbsolute_of_absolute exported
  have located' := located
  have rooted' := rooted
  have exported' := exported
  rw [← absolute_congr more.workPlace] at located' exported'
  rw [← searchRoots_congr more.workPlace] at rooted'
  rcases collected : Sources.collect ⟨ground, roots, parse, p.classify⟩ entry with ⟨answer, found⟩
  have same := (Sources.collect_over (s := ⟨ground, roots, parse, p.classify⟩) more script nothing
    (Sources.depthLimit ⟨ground, roots, parse, p.classify⟩)).trans collected
  have gathered := outcome_collect (s := { s with files := ground }) collected
  have gathered' := outcome_collect (s := { s with files := fs }) same
  unfold package Step.Alike
  rw [Step.outcome_files_bind, Step.outcome_demand_bind located', Step.outcome_demand_bind exported',
    Step.outcome_demand_bind rooted', Step.outcome_files_bind, Step.outcome_demand_bind located,
    Step.outcome_demand_bind exported, Step.outcome_demand_bind rooted]
  cases answer with
  | error e =>
    rw [Step.outcome_bind_error gathered, Step.outcome_bind_error gathered']
    exact ⟨rfl, nofun⟩
  | ok u =>
    rw [Step.outcome_bind_ok gathered, Step.outcome_bind_ok gathered']
    refine Step.alike_demand fun filter _ => Step.alike_of_eq ?_
    have ends : ∀ name, target.steps.getLast? = some (.name name) →
        (FileSystem.dropSlashes target).EndsInName := fun name last =>
      FileSystem.endsInName_of_absolute proper (Config.absolute_eq_ok exported) last
    have emitted := outcome_emit_leftover (s := { s with log := s.log ++ found.log })
      (b := ⟨target, filter.excludes⟩) leftover plain absolute vacant ends found.modules p.config.additionalModules
    exact Step.outcome_bind_congr (Step.outcome_adapt_congr emitted)

/-- **What was left at the path of the bundle does not show in a run.** Two file systems that are the same except
for what stands there, and that have no links elsewhere, lead to the same answer, and a run that comes to its end
leaves the same. The script is not in what was left, and no import finds a file there. -/
theorem package_ignores_leftovers (host : Host) (parse : String → Except ParseError (List ImportLine))
    (metadata : RunMetadata) (p : Packager) (s : Session) {ground fs fs' : FileSystem} {entry target : Path}
    {roots : List Path} (leftover : Leftover ground target fs) (leftover' : Leftover ground target fs')
    (plain : ground.Plain) (proper : ∀ name ∈ ground.workPlace, IsFileName name)
    (located : Config.absolute ground p.config.entryFile = .ok entry)
    (rooted : p.config.searchRoots ground = .ok roots)
    (exported : Config.absolute ground p.config.exportDirectory = .ok target)
    (vacant : ground.kind? target.normalPlace = none) (script : ground.isFile entry = true)
    (nothing : Sources.NothingNew ⟨ground, roots, parse, p.classify⟩ entry fs)
    (nothing' : Sources.NothingNew ⟨ground, roots, parse, p.classify⟩ entry fs') :
    (p.package host parse metadata).Alike { s with files := fs } { s with files := fs' } := by
  have first := alike_leftover host metadata s leftover plain proper located rooted exported vacant script nothing
  have second := alike_leftover host metadata s leftover' plain proper located rooted exported vacant script nothing'
  exact first.trans second.symm

/-! ## Runs that differ -/

/-- A script, and something at the path of its bundle. -/
def overLeft (source : String) (left : Option Node) : FileSystem where
  entries := ("main.py", .file source.toUTF8 false) :: (left.map fun n => ("out", n)).toList

/-- A script may import a module that stands at the path of the bundle. -/
def linesOut (source : String) : Except ParseError (List ImportLine) :=
  .ok (if source = "import out.helper\n" then [{ moduleName := "out.helper" }] else [])

/-- The run for a script over something at the path of its bundle. -/
def runOver (source directory : String) (left : Option Node) : Except PackageError Outcome × Session :=
  ((ofScript "/main.py" directory).package idle linesOut default).outcome { files := overLeft source left }

/-- **What is left shows:** the configuration is valid with it and without it, it stands at the normal form of the
path, and the answers are different or what is at some place afterwards is. -/
def Shows (source directory : String) (left : Node) (place : Place) : Prop :=
  ((ofScript "/main.py" directory).config.validate (overLeft source left)).toOption = some () ∧
    ((ofScript "/main.py" directory).config.validate (overLeft source none)).toOption = some () ∧
    (Path.mk directory).normalPlace = ["out"] ∧
    ((runOver source directory left).1.toOption ≠ (runOver source directory none).1.toOption ∨
      (runOver source directory left).2.files.kind? place ≠ (runOver source directory none).2.files.kind? place)

instance (source directory : String) (left : Node) (place : Place) : Decidable (Shows source directory left place) :=
  inferInstanceAs (Decidable (_ ∧ _ ∧ _ ∧ (_ ∨ _)))

/-- **What is left may show:** a link to nothing makes the run fail, and so does a file if the path ends with a
slash; a path that climbs through a missing directory leaves what an earlier run has written; and an import may find
a module that the reset takes away. -/
theorem leftovers_show :
    Shows "x = 1\n" "/out" (.link "gone") [] ∧
      Shows "x = 1\n" "/out/" (.file "".toUTF8 false) [] ∧
      Shows "x = 1\n" "/new/../out" (.directory [("stale.py", .file "".toUTF8 false)]) ["out", "stale.py"] ∧
      Shows "import out.helper\n" "/out" (.directory [("helper.py", .file "".toUTF8 false)]) [] := by
  decide +kernel

/-- A file and the directory of an earlier bundle do not show. -/
theorem package_ignores_leftovers_script :
    ((ofScript "/main.py" "/out").package idle (fun _ => .ok []) default).Alike
      { files := overLeft "x = 1\n" (some (.file "".toUTF8 false)) }
      { files := overLeft "x = 1\n" (some (.directory [("stale.py", .file "".toUTF8 false)])) } := by
  have leftover : ∀ left, (overLeft "x = 1\n" (some left)).pathExists ⟨"/out"⟩ = true →
      Leftover (overLeft "x = 1\n" none) ⟨"/out"⟩ (overLeft "x = 1\n" (some left)) := by
    intro left leads
    have place : (Path.mk "/out").normalPlace = ["out"] := by decide
    have isParent : (Path.mk "/out").parent? = some ⟨"/"⟩ := by decide
    have unclosed : (Path.mk "/out").endsWithSlash = false := by decide
    refine .entry ?_ ?_ isParent (by decide +kernel) (fun closed => ?_) leads
    · rw [place]
      rfl
    · rw [place]
      exact nofun
    · cases unclosed.symm.trans closed
  have nothing : ∀ files, Sources.NothingNew
      ⟨overLeft "x = 1\n" none, [⟨"/"⟩], fun _ => .ok [], fun _ => .unknown⟩ ⟨"/main.py"⟩ files := by
    rintro files m - l a name ⟨lines, read, mem⟩
    unfold Sources.linesOf at read
    split at read
    · cases read
    · cases read
      cases mem
  exact package_ignores_leftovers idle (fun _ => .ok []) default (ofScript "/main.py" "/out") { files := default }
    (leftover _ (by decide +kernel)) (leftover _ (by decide +kernel))
    (FileSystem.plain_of_all (by decide +kernel)) nofun (Sources.eq_ok_of_toOption (by decide +kernel))
    (Sources.eq_ok_of_toOption (by decide +kernel)) (Sources.eq_ok_of_toOption (by decide +kernel))
    (by decide +kernel) (by decide +kernel) (nothing _) (nothing _)

end Packager

end PyBundle
