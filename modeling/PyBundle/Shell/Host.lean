import PyBundle.Program.Find
import PyBundle.Shell.Reader
import PyBundle.Shell.Run

/-!
# A host whose programs are scripts

A program names its interpreter in its first line, and the interpreter has to be a shell. Every other
program can be found, but it cannot be executed.
-/

namespace PyBundle.Shell

/-- The paths of shells. -/
def shells : List String := ["/bin/sh", "/usr/bin/sh", "/bin/dash", "/usr/bin/dash", "/bin/bash", "/usr/bin/bash"]

/-- Whether a character separates an interpreter from what follows. -/
def isBlankInLine (c : Char) : Bool := c == ' ' || c == '\t'

/-- **The interpreter that the first line of a program names.** -/
def interpreter? (text : String) : Option String :=
  match text.toList with
  | '#' :: '!' :: rest =>
    let line := (rest.takeWhile (· != '\n')).dropWhile isBlankInLine
    let name := line.takeWhile fun c => !isBlankInLine c
    if name.isEmpty then none else some (String.ofList name)
  | _ => none

/-- **Runs a script** that is called by some name. -/
def runScript (fs : FileSystem) (name : String) (arguments : List String) (text : String) :
    FileSystem × Finished :=
  match readScript text with
  | none => (fs, { code := some 2, written := [⟨.diagnostics, s!"{name}: Syntax error\n".toUTF8⟩] })
  | some commands =>
    let st := runAll commands {} { files := fs, name, arguments }
    (st.files, { code := st.ended.getD (some st.status), written := st.written })

/-- **What a call does.** -/
def runCall (searchPath : List Path) (fs : FileSystem) (call : Call) : FileSystem × Except Fault Finished :=
  if (call.program :: call.arguments).any (·.contains '\x00') then (fs, .error .nulInArgument)
  else
    match Program.find fs searchPath call.program with
    | .error f => (fs, .error f)
    | .ok (p, content) =>
      let text := Text.Utf8.decodeLossy content
      match interpreter? text with
      | none => (fs, .error .notExecutable)
      | some interpreter =>
        match Program.contentOf fs ⟨interpreter⟩ with
        | .error f => (fs, .error f)
        | .ok _ =>
          if shells.contains interpreter then
            let (fs, finished) := runScript fs p.text call.arguments text
            (fs, .ok finished)
          else (fs, .error .notExecutable)

/-- **The host whose programs are scripts.** -/
def host (searchPath : List Path) : Host := ⟨searchPath, runCall searchPath⟩

end PyBundle.Shell
