import PyBundle.FileSystem.Resolve

/-!
# Reading a file system
-/

namespace PyBundle.FileSystem

/-- **The bytes of a file.** -/
def read (fs : FileSystem) (p : Path) : Except Fault ByteArray :=
  match fs.node p with
  | .error f => .error f
  | .ok (.file content _) => .ok content
  | .ok _ => .error .isDirectory

/-- **The text of a file.** -/
def readText (fs : FileSystem) (p : Path) : Except Fault String :=
  match fs.read p with
  | .error f => .error f
  | .ok content =>
    match String.fromUTF8? content with
    | some text => .ok text
    | none => .error .invalidText

/-- **The entries of a directory.** -/
def list (fs : FileSystem) (p : Path) : Except Fault Entries :=
  match fs.node p with
  | .error f => .error f
  | .ok (.directory entries) => .ok entries
  | .ok _ => .error .notDirectory

/-- **An absolute form of a path.** -/
def absolute (fs : FileSystem) (p : Path) : Except Fault Path :=
  match p.absolute? fs.workPath with
  | some q => .ok q
  | none => .error .emptyPath

end PyBundle.FileSystem
