import PyBundle.Log.Record
import PyBundle.Program.Basic

/-!
# Sessions

The state of a run that changes things: the file system, what was told so far and the programs that were
started. A step of a run may fail, and then the state stays as the step has left it.
-/

namespace PyBundle

/-- **The state of a run.** -/
structure Session where
  files : FileSystem
  log : Log := []
  /-- The calls of programs so far. -/
  calls : List Call := []
  deriving Inhabited

/-- **A step of a run.** -/
abbrev Step (ε α : Type) := ExceptT ε (StateM Session) α

namespace Step

/-- Tells something. -/
def note {ε : Type} (r : LogRecord) : Step ε Unit := modify fun s => { s with log := s.log ++ [r] }

/-- Tells several things. -/
def noteAll {ε : Type} (rs : Log) : Step ε Unit := modify fun s => { s with log := s.log ++ rs }

/-- The file system as it is now. -/
def files {ε : Type} : Step ε FileSystem := do return (← get).files

/-- **Changes the file system.** What a change has done stays if it fails. -/
def change {ε : Type} (failure : Fault → ε) (operation : FileSystem → FileSystem × Except Fault Unit) :
    Step ε Unit := do
  let s ← get
  let (files, answer) := operation s.files
  set { s with files }
  match answer with
  | .ok () => pure ()
  | .error f => throw (failure f)

/-- An answer that a step cannot do without. -/
def demand {ε δ α : Type} (failure : δ → ε) : Except δ α → Step ε α
  | .ok a => pure a
  | .error d => throw (failure d)

/-- **Starts a program** and waits for its end. -/
def start {ε : Type} (host : Host) (failure : Fault → ε) (call : Call) : Step ε Finished := do
  let s ← get
  let (files, answer) := host.run s.files call
  set { s with files, calls := s.calls ++ [call] }
  demand failure answer

end Step

end PyBundle
