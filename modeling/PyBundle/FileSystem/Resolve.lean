import PyBundle.FileSystem.Fault
import PyBundle.FileSystem.Node

/-!
# Where a path leads

A path leads through directories and symbolic links to an entry, or to a name in a directory that has no
such entry. `FileSystem.advance` follows a path up to the first link that has to be followed, and
`FileSystem.resolve` goes on from there, through as many links as are allowed.
-/

namespace PyBundle

/-- **Where a path leads.** -/
inductive Spot where
  /-- To an entry. -/
  | taken (place : Place)
  /-- To a name that a directory does not have. -/
  | vacant (directory : Place) (name : String)
  deriving DecidableEq, Repr, Inhabited

/-- How far a path leads before a link. -/
inductive Advance where
  | arrived (spot : Spot)
  /-- A link is met: from a directory, the names of its target and those behind it are still to go. -/
  | atLink (from_ : Place) (names : List String)
  deriving DecidableEq, Repr, Inhabited

namespace FileSystem

/-- The longest name of an entry, in bytes. -/
def longestName : Nat := 255

/-- The shortest path, in bytes, that is too long. -/
def pathLimit : Nat := 4096

/-- How many links a path may lead through. -/
def linkLimit : Nat := 40

/-- The names that a text leads through. A last slash leads into what stands before it. -/
def namesOf (text : String) : List String := (text.toList.splitOn '/').map String.ofList

/-- **Follows names from a directory** to their end or to a link. A link at the end is only followed on
demand. -/
def advance (fs : FileSystem) (followLast : Bool) : Place → List String → Except Fault Advance
  | here, [] => .ok (.arrived (.taken here))
  | here, name :: rest =>
    if name == "" || name == "." then advance fs followLast here rest
    else if name == ".." then advance fs followLast here.dropLast rest
    else if longestName < name.utf8ByteSize then .error .nameTooLong
    else
      match fs.get? (here ++ [name]) with
      | none => if rest.isEmpty then .ok (.arrived (.vacant here name)) else .error .noSuchEntry
      | some (.directory _) => advance fs followLast (here ++ [name]) rest
      | some (.file _ _) =>
        if rest.isEmpty then .ok (.arrived (.taken (here ++ [name]))) else .error .notDirectory
      | some (.link target) =>
        if rest.isEmpty && !followLast then .ok (.arrived (.taken (here ++ [name])))
        else .ok (.atLink (if target.startsWith "/" then [] else here) (namesOf target ++ rest))

/-- Follows names through as many links as are left. -/
def follow (fs : FileSystem) (followLast : Bool) : Nat → Place → List String → Except Fault Spot
  | links, here, names =>
    match fs.advance followLast here names with
    | .error f => .error f
    | .ok (.arrived spot) => .ok spot
    | .ok (.atLink from_ names) =>
      match links with
      | 0 => .error .tooManyLinks
      | links + 1 => follow fs followLast links from_ names

/-- **Where a path leads.** The directory in which a relative path starts has to exist. -/
def resolve (fs : FileSystem) (followLast : Bool) (p : Path) : Except Fault Spot :=
  if p.text.toList.contains '\x00' then .error .nulInPath
  else if p.isEmpty then .error .noSuchEntry
  else if pathLimit ≤ p.text.utf8ByteSize then .error .nameTooLong
  else
    let start := if p.isAbsolute then [] else fs.workPlace
    if (fs.get? start).any (·.isDirectory) then fs.follow followLast linkLimit start (namesOf p.text)
    else .error .noSuchEntry

/-- **The place of the entry that a path leads to.** -/
def place (fs : FileSystem) (p : Path) : Except Fault Place :=
  match fs.resolve true p with
  | .error f => .error f
  | .ok (.taken place) => .ok place
  | .ok (.vacant _ _) => .error .noSuchEntry

/-- **The entry that a path leads to.** -/
def node (fs : FileSystem) (p : Path) : Except Fault Node :=
  match fs.place p with
  | .error f => .error f
  | .ok place =>
    match fs.get? place with
    | some n => .ok n
    | none => .error .noSuchEntry

/-- The entry that a path leads to, where a link at its end is not followed. -/
def nodeItself (fs : FileSystem) (p : Path) : Except Fault (Place × Node) :=
  match fs.resolve false p with
  | .error f => .error f
  | .ok (.vacant _ _) => .error .noSuchEntry
  | .ok (.taken place) =>
    match fs.get? place with
    | some n => .ok (place, n)
    | none => .error .noSuchEntry

/-- Whether a path leads to an entry. -/
def pathExists (fs : FileSystem) (p : Path) : Bool := (fs.node p).toOption.isSome

/-- Whether a path leads to a file. -/
def isFile (fs : FileSystem) (p : Path) : Bool := (fs.node p).toOption.any (·.isFile)

/-- Whether a path leads to a directory. -/
def isDirectory (fs : FileSystem) (p : Path) : Bool := (fs.node p).toOption.any (·.isDirectory)

end FileSystem

end PyBundle
