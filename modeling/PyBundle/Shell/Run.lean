import PyBundle.Glob.Match
import PyBundle.Shell.Command
import PyBundle.Shell.Text

/-!
# Running shell commands

A command changes a state: the file system, the variables, what is written so far and the status of the
last command. Nothing runs any more when the script has ended.
-/

namespace PyBundle.Shell

/-- **Where what is written goes.** -/
inductive Sink where
  | stream (s : Stream)
  | file (p : Path)
  | nowhere
  deriving DecidableEq, Repr, Inhabited

/-- Where the two streams go. -/
structure Sinks where
  output : Sink := .stream .output
  diagnostics : Sink := .stream .diagnostics
  deriving Inhabited

/-- Where a stream goes. -/
def Sinks.of (sinks : Sinks) : Stream → Sink
  | .output => sinks.output
  | .diagnostics => sinks.diagnostics

/-- Sinks where one stream goes elsewhere. -/
def Sinks.redirect (sinks : Sinks) (s : Stream) (sink : Sink) : Sinks :=
  match s with
  | .output => { sinks with output := sink }
  | .diagnostics => { sinks with diagnostics := sink }

/-- **The state of a script.** -/
structure State where
  files : FileSystem
  /-- The name of the script. -/
  name : String
  arguments : List String
  bindings : List (String × String) := []
  written : List Chunk := []
  status : Nat := 0
  /-- How the script has ended, with a code or stopped. -/
  ended : Option (Option Nat) := none
  deriving Inhabited

namespace State

/-- The state after a command of some status. -/
def withStatus (st : State) (status : Nat) : State := { st with status }

/-- The state after a command that succeeds under a condition. -/
def succeedIf (st : State) (b : Bool) : State := st.withStatus (if b then 0 else 1)

/-- **Writes bytes to a sink.** -/
def write (st : State) (sink : Sink) (bytes : List UInt8) : State :=
  if bytes.isEmpty then st
  else
    match sink with
    | .nowhere => st
    | .stream stream => { st with written := st.written ++ [⟨stream, ⟨bytes.toArray⟩⟩] }
    | .file p =>
      let before := (st.files.read p).toOption.getD ByteArray.empty
      match st.files.write p (before ++ ⟨bytes.toArray⟩) with
      | .ok files => { st with files }
      | .error _ => st

/-! ## Values of words -/

/-- **The value of a parameter.** -/
def value (st : State) (name : String) : String :=
  match name with
  | "@" => " ".intercalate st.arguments
  | "*" => " ".intercalate st.arguments
  | "#" => toString st.arguments.length
  | "?" => toString st.status
  | "$" => "1"
  | "0" => st.name
  | name =>
    match name.toNat? with
    | some n => (st.arguments[n - 1]?).getD ""
    | none =>
      match st.bindings.lookup name with
      | some v => v
      | none => if name == "PWD" then st.files.workPath.text else ""

/-- Sets a variable. -/
def assign (st : State) (name value : String) : State :=
  { st with bindings := (name, value) :: st.bindings }

end State

/-- Words that are made: those that are complete, the last one first, and the one that has been begun. -/
structure Fields where
  complete : List String := []
  open? : Option String := none
  deriving Inhabited

namespace Fields

/-- Adds a text to the word that is begun. -/
def add (f : Fields) (s : String) : Fields := { f with open? := some (f.open?.getD "" ++ s) }

/-- Ends the word that is begun. -/
def close (f : Fields) : Fields :=
  match f.open? with
  | some s => ⟨s :: f.complete, none⟩
  | none => f

/-- Adds a text whose blanks separate words. -/
def addSplit (f : Fields) (s : String) : Fields :=
  s.toList.foldl
    (fun f c => if c == ' ' || c == '\t' || c == '\n' then f.close else f.add c.toString) f

/-- Adds texts as words of their own, of which the first one goes on from the word that is begun. -/
def addEach (f : Fields) (add : Fields → String → Fields) : List String → Fields
  | [] => f
  | [s] => add f s
  | s :: rest => addEach (add f s).close add rest

/-- The words. -/
def words (f : Fields) : List String := f.close.complete.reverse

end Fields

/-- Puts the value of a piece in. -/
def addPiece (st : State) (f : Fields) : Piece → Fields
  | .text s => f.add s
  | .value name true => f.add (st.value name)
  | .value name false => f.addSplit (st.value name)
  | .arguments true => f.addEach Fields.add st.arguments
  | .arguments false => f.addEach Fields.addSplit st.arguments

/-- **The words that a word makes up** when its values are put in. -/
def expand (st : State) (w : Word) : List String := (w.foldl (addPiece st) {}).words

/-- The text that a word makes up where it is not cut. -/
def expandWhole (st : State) (w : Word) : String :=
  String.join <| w.map fun
    | .text s => s
    | .value name _ => st.value name
    | .arguments _ => " ".intercalate st.arguments

/-! ## Built-in commands -/

/-- What a shell says of itself. -/
def complain (st : State) (sinks : Sinks) (line : Nat) (text : String) : State :=
  st.write sinks.diagnostics (bytesOf s!"{st.name}: {line}: {text}\n")

/-- Whether the words of a test hold. -/
def holds (fs : FileSystem) : List String → Bool
  | "!" :: rest => !holds fs rest
  | ["-f", p] => fs.isFile ⟨p⟩
  | ["-d", p] => fs.isDirectory ⟨p⟩
  | ["-e", p] => fs.pathExists ⟨p⟩
  | ["-n", s] => s != ""
  | ["-z", s] => s == ""
  | [a, "=", b] => a == b
  | [a, "!=", b] => a != b
  | [a, "-eq", b] => numberText a == numberText b
  | [a, "-ne", b] => numberText a != numberText b
  | [s] => s != ""
  | _ => false

/-- Changes the file system at each of some paths. The status is 1 if a change fails. -/
def changeEach (st : State) (change : FileSystem → Path → FileSystem × Except Fault Unit)
    (paths : List String) : State :=
  paths.foldl
    (fun st p =>
      match change st.files ⟨p⟩ with
      | (files, .ok ()) => { st with files }
      | (files, .error _) => { st with files, status := 1 })
    (st.withStatus 0)

/-- The arguments that are no options. -/
def operands (arguments : List String) : List String := arguments.filter fun a => !a.startsWith "-"

/-- Writes the content of some files. -/
def showFiles (st : State) (sinks : Sinks) (paths : List String) : State :=
  paths.foldl
    (fun st p =>
      match st.files.read ⟨p⟩ with
      | .ok content => st.write sinks.output content.toList
      | .error f =>
        (st.write sinks.diagnostics (bytesOf s!"cat: {p}: {f.description}\n")).withStatus 1)
    (st.withStatus 0)

/-- **Runs a program by its name.** -/
def runNamed (st : State) (sinks : Sinks) (line : Nat) (name : String) (arguments : List String) : State :=
  match name with
  | "echo" => (st.write sinks.output (echoed arguments)).withStatus 0
  | "printf" => (st.write sinks.output (printed arguments)).withStatus 0
  | "exit" =>
    let code := match arguments.head?.bind (·.toNat?) with
      | some n => n % 256
      | none => st.status
    { st with status := code, ended := some (some code) }
  | "kill" => if arguments.contains (st.value "$") then { st with ended := some none } else st.withStatus 1
  | "true" => st.withStatus 0
  | ":" => st.withStatus 0
  | "set" => st.withStatus 0
  | "false" => st.withStatus 1
  | "shift" => { st with arguments := st.arguments.drop 1, status := 0 }
  | "pwd" => (st.write sinks.output (bytesOf (st.files.workPath.text ++ "\n"))).withStatus 0
  | "test" => st.succeedIf (holds st.files arguments)
  | "[" => st.succeedIf (holds st.files arguments.dropLast)
  | "cat" => showFiles st sinks arguments
  | "touch" =>
    changeEach st
      (fun fs p => if fs.pathExists p then (fs, .ok ()) else fs.settle (fs.write p ByteArray.empty))
      (operands arguments)
  | "mkdir" =>
    if arguments.contains "-p" then changeEach st FileSystem.makeDirectories (operands arguments)
    else changeEach st (fun fs p => fs.settle (fs.makeDirectory p)) (operands arguments)
  | "rm" =>
    changeEach st
      (fun fs p => if fs.isDirectory p then fs.removeTree p else fs.settle (fs.removeFile p))
      (operands arguments)
  | name => (complain st sinks line s!"{name}: not found").withStatus 127

/-! ## Redirections -/

/-- What a shell says of a file that it cannot open. -/
def openFault : Fault → String
  | .noSuchEntry => "Directory nonexistent"
  | f => f.description

/-- Opens a file. It is made if it is not there, and emptied unless it is appended to. -/
def openFile (st : State) (append : Bool) (p : Path) : Except Fault (State × Sink) :=
  if p.text == "/dev/null" then .ok (st, .nowhere)
  else if append && (st.files.read p).toOption.isSome then .ok (st, .file p)
  else (st.files.write p ByteArray.empty).map fun files => ({ st with files }, .file p)

/-- **The sinks under some redirections.** There are none if a file cannot be opened. -/
def redirected (line : Nat) (st : State) (sinks : Sinks) : List Redirect → State × Option Sinks
  | [] => (st, some sinks)
  | .toStream s target :: rest => redirected line st (sinks.redirect s (sinks.of target)) rest
  | .toFile s append target :: rest =>
    let p : Path := ⟨expandWhole st target⟩
    match openFile st append p with
    | .ok (st, sink) => redirected line st (sinks.redirect s sink) rest
    | .error f =>
      ((complain st sinks line s!"cannot create {p.text}: {openFault f}").withStatus 2, none)

/-! ## Commands -/

/-- Runs a simple command. -/
def runSimple (line : Nat) (assignments : List (String × Word)) (words : List Word)
    (redirects : List Redirect) (sinks : Sinks) (st : State) : State :=
  let fields := words.flatMap (expand st)
  match redirected line st sinks redirects with
  | (st, none) => st
  | (st, some sinks) =>
    let st := assignments.foldl (fun st (name, w) => st.assign name (expandWhole st w)) st
    match fields with
    | [] => st.withStatus 0
    | name :: arguments => runNamed st sinks line name arguments

/-- Whether a word matches a pattern. -/
def matchesPattern (st : State) (word : String) (pattern : Word) : Bool :=
  match Glob.parse (expandWhole st pattern) with
  | .ok tokens => Glob.isMatch tokens word
  | .error _ => false

mutual
/-- **Runs a command.** -/
def runCommand : Command → Sinks → State → State
  | .simple line assignments words redirects, sinks, st =>
    runSimple line assignments words redirects sinks st
  | .forEach name words body redirects, sinks, st =>
    match redirected 0 st sinks redirects with
    | (st, none) => st
    | (st, some sinks) =>
      (words.flatMap (expand st)).foldl
        (fun st v => if st.ended.isSome then st else runAll body sinks (st.assign name v)) st
  | .choose branches otherwise redirects, sinks, st =>
    match redirected 0 st sinks redirects with
    | (st, none) => st
    | (st, some sinks) =>
      match runBranches branches sinks st with
      | (st, true) => st
      | (st, false) => runAll otherwise sinks (st.withStatus 0)
  | .byPattern word branches redirects, sinks, st =>
    match redirected 0 st sinks redirects with
    | (st, none) => st
    | (st, some sinks) => runCases (expandWhole st word) branches sinks (st.withStatus 0)
  | .andThen first second, sinks, st =>
    let st := runCommand first sinks st
    if st.ended.isSome || st.status != 0 then st else runCommand second sinks st
  | .orElse first second, sinks, st =>
    let st := runCommand first sinks st
    if st.ended.isSome || st.status == 0 then st else runCommand second sinks st
  | .negated command, sinks, st =>
    let st := runCommand command sinks st
    if st.ended.isSome then st else st.succeedIf (st.status != 0)
/-- Runs commands in turn. -/
def runAll : List Command → Sinks → State → State
  | [], _, st => st
  | c :: cs, sinks, st => if st.ended.isSome then st else runAll cs sinks (runCommand c sinks st)
/-- Runs the commands behind the first condition that holds. The answer says whether one does. -/
def runBranches : List (List Command × List Command) → Sinks → State → State × Bool
  | [], _, st => (st, false)
  | (condition, body) :: branches, sinks, st =>
    let st := runAll condition sinks st
    if st.ended.isSome then (st, true)
    else if st.status == 0 then (runAll body sinks st, true)
    else runBranches branches sinks st
/-- Runs the commands behind the first pattern that a word matches. -/
def runCases (word : String) : List (List Word × List Command) → Sinks → State → State
  | [], _, st => st
  | (patterns, body) :: branches, sinks, st =>
    if patterns.any (matchesPattern st word) then runAll body sinks st
    else runCases word branches sinks st
end

end PyBundle.Shell
