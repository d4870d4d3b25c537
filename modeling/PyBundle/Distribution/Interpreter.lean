import PyBundle.Distribution.Index
import PyBundle.Program.Find
import PyBundle.Program.Session

/-!
# Where an interpreter finds distributions

An interpreter tells the directories from which it imports, one on each line.
-/

namespace PyBundle

/-- **Why an interpreter does not tell its directories.** -/
inductive InterpreterError where
  | notFound (python : String)
  | failed (python : String) (code : Nat) (diagnostics : String)
  | fault (f : Fault)
  deriving DecidableEq, Repr, Inhabited

/-- The text of a failure. -/
def InterpreterError.message : InterpreterError → String
  | notFound python => s!"Python interpreter '{python}' not found: cannot find binary path"
  | failed python code diagnostics => s!"Python interpreter '{python}' failed (exit={code}): {diagnostics}"
  | fault f => s!"IO error: {f.message}"

namespace Interpreter

/-- The program that tells the directories. -/
def searchPathProgram : String := "import sys\nfor p in sys.path:\n    print(p)"

/-- **The directories among some lines.** -/
def directoriesIn (fs : FileSystem) (text : String) : List Path :=
  (((Text.lines text.toList).map fun line => String.ofList (Text.trim line)).filter (· != "")).map Path.mk
    |>.filter fs.isDirectory

/-- **The directories from which an interpreter imports.** -/
def searchPath (host : Host) (python : String) : Step InterpreterError (List Path) := do
  match Program.which? (← Step.files) host.searchPath python with
  | none => throw (.notFound python)
  | some program =>
    let finished ← Step.start host .fault ⟨program.text, ["-c", searchPathProgram]⟩
    if !finished.succeeded then
      throw (.failed python finished.shownCode (Finished.shownText (finished.onStream .diagnostics)))
    return directoriesIn (← Step.files) (Finished.asText (finished.onStream .output))

/-- **The index of the distributions that an interpreter imports.** -/
def index (host : Host) (python : String) : Step InterpreterError Distribution.Index := do
  let roots ← searchPath host python
  let (index, log) := Distribution.Index.ofRoots (← Step.files) roots
  Step.noteAll log
  return index

end Interpreter

end PyBundle
