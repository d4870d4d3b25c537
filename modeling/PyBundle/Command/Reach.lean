import PyBundle.Command.Arguments
import PyBundle.Program.Find

/-!
# What a run reaches

The paths below which a run of the command reads or writes. What is elsewhere has no influence on it.
-/

namespace PyBundle.Command

/-- The directory that a path is in. A path that names nothing else is in the directory in which the run
starts. -/
def directoryOf (p : Path) : Path :=
  match p.parent? with
  | some parent => if parent.isEmpty then ⟨"."⟩ else parent
  | none => p

/-- The paths at which a program of some name may be. -/
def programPaths (searchPath : List Path) (name : String) : List Path :=
  if Program.isPath name then [⟨name⟩] else searchPath.map (·.push name)

/-- The paths that matter if programs are started. A program may use the directory in which the run
starts. -/
def programReach (searchPath : List Path) (c : Config) : List Path :=
  if c.sitePackages.isEmpty || !c.installDependencies.isEmpty then
    ⟨"."⟩ :: ["sh", c.python, c.pip].flatMap (programPaths searchPath)
  else []

/-- **The paths below which a run reads or writes.** -/
def Arguments.reach (searchPath : List Path) (a : Arguments) : List Path :=
  let c := a.config
  [directoryOf c.entryFile, c.exportDirectory] ++ c.searchPaths ++ c.additionalModules ++ c.sitePackages ++
    a.report.toList ++ programReach searchPath c

end PyBundle.Command
