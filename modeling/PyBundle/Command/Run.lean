import PyBundle.Command.Arguments
import PyBundle.Command.Failure

/-!
# Running the command

The command answers with an exit code, with what it prints and with what it tells about the run.
-/

namespace PyBundle.Command

open Syntax (ParseError)

/-- The version of this program. -/
def toolVersion : String := "0.1.0"

/-- How the command is used. -/
def usage : String := "Usage: pypackager [OPTIONS] --export-dir <EXPORT_DIR> <SCRIPT>\n"

/-- **What the command answers with.** -/
structure Answer where
  exitCode : Nat
  printed : String
  told : String
  deriving DecidableEq, Repr, Inhabited

/-- Why a run of the command fails. -/
inductive RunError where
  | package (e : PackageError)
  | report (path : Path) (fault : Fault)
  deriving Repr, Inhabited

/-- The texts of a failed run and its causes. -/
def RunError.causes : RunError → List String
  | package e => e.causes
  | report path fault => [s!"Failed to write report to {path.text}", fault.message]

/-- Writes a report. -/
def writeReport (path : Path) (text : String) : Step RunError Unit := do
  Step.change (.report path) fun fs => fs.settle (fs.write path text.toUTF8)
  Step.note (.info s!"Report written to: {path.text}")

/-- **Bundles a program as the arguments say** and answers with what is printed. -/
def execute (host : Host) (parse : String → Except ParseError (List ImportLine)) (metadata : RunMetadata)
    (a : Arguments) : Step RunError String := do
  let packager ← (Packager.new host a.config).adapt .package
  let outcome ← (packager.package host parse metadata).adapt .package
  if let some path := a.report then
    writeReport path (outcome.report.render (a.reportFormat.getD .json))
  return outcome.result.render ++ "\n"

/-- Whether a record is told. Only warnings are, unless more is asked for. -/
def isTold (verbose : Bool) (r : LogRecord) : Bool := verbose || r.severity == .warning

/-- The records that are told, each on a line. Further lines of a record are indented. -/
def toldText (verbose : Bool) (log : Log) : String :=
  String.join ((log.filter (isTold verbose)).map fun r => hang "    " r.display ++ "\n")

/-- **Runs the command.** -/
def run (host : Host) (parse : String → Except ParseError (List ImportLine)) (metadata : RunMetadata)
    (files : FileSystem) (arguments : List String) : Answer × FileSystem :=
  match request? arguments with
  | none => (⟨2, "", "error: wrong arguments\n\n" ++ usage⟩, files)
  | some .showHelp => (⟨0, usage, ""⟩, files)
  | some .showVersion => (⟨0, s!"pypackager {toolVersion}\n", ""⟩, files)
  | some (.run a) =>
    let (answer, s) := (execute host parse metadata a).run.run { files }
    let told := toldText a.verbose s.log
    match answer with
    | .ok printed => (⟨0, printed, told⟩, s.files)
    | .error e => (⟨1, "", told ++ "Error: " ++ showCauses e.causes ++ "\n"⟩, s.files)

end PyBundle.Command
