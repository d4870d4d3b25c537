import PyBundle.Program.Basic

/-!
# Where a program is found

A name with a slash is a path. Any other name is looked for in the directories of a search path.
-/

namespace PyBundle.Program

/-- Whether a name is a path. -/
def isPath (name : String) : Bool := name.toList.contains '/'

/-- Whether a path leads to a file that may be executed. -/
def isExecutableFile (fs : FileSystem) (p : Path) : Bool :=
  match fs.node p with
  | .ok (.file _ executable) => executable
  | _ => false

/-- **The path of the program of some name.** -/
def which? (fs : FileSystem) (searchPath : List Path) (name : String) : Option Path :=
  if name == "" then none
  else
    let paths := if isPath name then [fs.workPath.push name] else searchPath.map (·.push name)
    paths.find? (isExecutableFile fs)

/-- **The content of a program that is to be executed.** -/
def contentOf (fs : FileSystem) (p : Path) : Except Fault ByteArray :=
  match fs.node p with
  | .error f => .error f
  | .ok (.file content true) => .ok content
  | .ok _ => .error .permissionDenied

/-- The program of some name in the first directory that has it. One that may not be executed does not
count, but it is remembered. -/
def search (fs : FileSystem) (name : String) (denied : Bool) : List Path → Except Fault (Path × ByteArray)
  | [] => .error (if denied then .permissionDenied else .noSuchEntry)
  | directory :: rest =>
    let p := directory.push name
    match contentOf fs p with
    | .ok content => .ok (p, content)
    | .error .permissionDenied => search fs name true rest
    | .error .noSuchEntry => search fs name denied rest
    | .error .notDirectory => search fs name denied rest
    | .error f => .error f

/-- **The path and the content of a program that is to be executed.** -/
def find (fs : FileSystem) (searchPath : List Path) (name : String) : Except Fault (Path × ByteArray) :=
  if name == "" then .error .noSuchEntry
  else if isPath name then (contentOf fs ⟨name⟩).map fun content => (⟨name⟩, content)
  else search fs name false searchPath

end PyBundle.Program
