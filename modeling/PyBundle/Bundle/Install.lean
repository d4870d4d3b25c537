import PyBundle.Bundle.Config
import PyBundle.Program.Session

/-!
# Installing dependencies

Each dependency is installed into the bundle by a call of its own. The first one that fails ends the run.
-/

namespace PyBundle

/-- **Why a dependency is not installed.** -/
inductive InstallError where
  | notStarted (program : String) (fault : Fault)
  | failed (dependency : String) (code : Nat) (output : String)
  deriving DecidableEq, Repr, Inhabited

/-- The text of a failure. -/
def InstallError.message : InstallError → String
  | notStarted program fault => s!"Failed to run {program}: {fault.message}"
  | failed dependency code output => s!"Installing {dependency} failed (exit={code}):\n{output}"

namespace Install

/-- **The arguments of an installation:** wheels alone, for one platform, and nothing is compiled. -/
def arguments (target : Path) (architecture : Architecture) (dependency : String) : List String :=
  ["install", "-t", target.text, "--platform", architecture.platformTag, "--no-compile",
    "--only-binary=:all:", dependency]

/-- Installs a dependency. -/
def one (host : Host) (pip : String) (target : Path) (architecture : Architecture) (dependency : String) :
    Step InstallError Unit := do
  Step.note (.debug s!"Installing {dependency} for {architecture.platformTag} into {target.text}")
  let finished ← Step.start host (.notStarted pip) ⟨pip, arguments target architecture dependency⟩
  if !finished.succeeded then
    throw (.failed dependency finished.shownCode (Finished.shownText finished.everything))

/-- **Installs dependencies in turn** and answers with their number. -/
def all (host : Host) (pip : String) (target : Path) (architecture : Architecture)
    (dependencies : List String) : Step InstallError Nat := do
  dependencies.forM (one host pip target architecture)
  return dependencies.length

end Install

end PyBundle
