import PyBundle.FileSystem.Reading

/-!
# Changing a file system

Each operation answers with the changed file system or with a fault. `makeDirectories` and `removeTree`
change a file system step by step and may fail half way, so they answer with both.
-/

namespace PyBundle.FileSystem

/-- A file system and whether it was changed: a change that fails leaves all as it is. -/
def settle (fs : FileSystem) : Except Fault FileSystem → FileSystem × Except Fault Unit
  | .ok changed => (changed, .ok ())
  | .error f => (fs, .error f)

/-! ## Directories -/

/-- A path without the slashes at its end. The root stays. -/
def dropSlashes (p : Path) : Path :=
  let kept := (p.text.toList.reverse.dropWhile (· == '/')).reverse
  if kept.isEmpty then p else ⟨String.ofList kept⟩

/-- **Makes a directory.** Its parent has to exist. -/
def makeDirectory (fs : FileSystem) (p : Path) : Except Fault FileSystem :=
  if pathLimit ≤ p.text.utf8ByteSize then .error .nameTooLong
  else
    match fs.resolve false (dropSlashes p) with
    | .error f => .error f
    | .ok (.taken _) => .error .alreadyExists
    | .ok (.vacant directory name) => .ok (fs.put (directory ++ [name]) (.directory []))

/-- Makes a directory after an attempt to make its parents, if they are missing. The fuel bounds the
number of parents. -/
def makeDirectoriesAux : Nat → FileSystem → Path → FileSystem × Except Fault Unit
  | fuel, fs, p =>
    if p.isEmpty then (fs, .ok ())
    else
      match fs.makeDirectory p with
      | .ok fs => (fs, .ok ())
      | .error .noSuchEntry =>
        match fuel, p.parent? with
        | fuel + 1, some parent =>
          match makeDirectoriesAux fuel fs parent with
          | (fs, .error f) => (fs, .error f)
          | (fs, .ok ()) =>
            match fs.makeDirectory p with
            | .ok fs => (fs, .ok ())
            | .error f => (fs, if fs.isDirectory p then .ok () else .error f)
        | _, _ => (fs, .error .noParent)
      | .error f => (fs, if fs.isDirectory p then .ok () else .error f)

/-- **Makes a directory and the parents that are missing.** A directory that exists is left as it is. -/
def makeDirectories (fs : FileSystem) (p : Path) : FileSystem × Except Fault Unit :=
  makeDirectoriesAux p.components.length fs p

/-! ## Files -/

/-- **The place of a file that is about to be written,** with the entry that is there. A path that ends
with a slash names a directory. -/
def writable (fs : FileSystem) (p : Path) : Except Fault (Place × Option Node) :=
  match fs.resolve true (dropSlashes p) with
  | .error f => .error f
  | .ok (.vacant directory name) =>
    if p.endsWithSlash then .error .isDirectory else .ok (directory ++ [name], none)
  | .ok (.taken place) =>
    if p.endsWithSlash then .error .isDirectory
    else
      match fs.get? place with
      | some (.directory _) => .error .isDirectory
      | n? => .ok (place, n?)

/-- Whether a file may be executed. -/
def isExecutable : Option Node → Bool
  | some (.file _ executable) => executable
  | _ => false

/-- **Writes a file,** which keeps its mode if it exists. -/
def write (fs : FileSystem) (p : Path) (content : ByteArray) : Except Fault FileSystem :=
  match fs.writable p with
  | .error f => .error f
  | .ok (place, n?) => .ok (fs.put place (.file content (isExecutable n?)))

/-- **Copies a file with its mode.** The copy is emptied before the file is read, so a file that is copied
to itself is emptied. -/
def copy (fs : FileSystem) (source target : Path) : Except Fault FileSystem :=
  match fs.place source with
  | .error f => .error f
  | .ok sourcePlace =>
    match fs.get? sourcePlace with
    | some (.file content executable) =>
      match fs.writable target with
      | .error f => .error f
      | .ok (place, _) =>
        let content := if place = sourcePlace then ByteArray.empty else content
        .ok (fs.put place (.file content executable))
    | _ => .error .notFile

/-- **Removes a file or a link.** -/
def removeFile (fs : FileSystem) (p : Path) : Except Fault FileSystem :=
  match fs.nodeItself p with
  | .error f => .error f
  | .ok (_, .directory _) => .error .isDirectory
  | .ok (place, _) => .ok (fs.erase place)

/-- The fault of removing an empty directory through a path that does not end with its name. -/
def removalFault (fs : FileSystem) (p : Path) : Option Fault :=
  match (namesOf (dropSlashes p).text).getLast? with
  | some "." => some .invalidArgument
  | some ".." => if fs.pathExists p then some .notEmpty else none
  | _ =>
    match fs.nodeItself (dropSlashes p) with
    | .ok (_, .link _) => some .notDirectory
    | _ => none

/-- **Removes a directory with all that it holds,** and of a link only the link. What a directory holds
goes even if the path is no name of the directory that could go with it. -/
def removeTree (fs : FileSystem) (p : Path) : FileSystem × Except Fault Unit :=
  match fs.nodeItself p with
  | .error f => (fs, .error f)
  | .ok (place, .link _) => (fs.erase place, .ok ())
  | .ok (_, .file _ _) => (fs, .error .notDirectory)
  | .ok (place, .directory _) =>
    let emptied := fs.put place (.directory [])
    match emptied.removalFault p with
    | some f => (emptied, .error f)
    | none =>
      match emptied.nodeItself p with
      | .ok _ => (emptied.erase place, .ok ())
      | .error _ => (emptied, .ok ())

end PyBundle.FileSystem
