import PyBundle.Path.Basic

/-!
# File systems

A file system is a tree of directories that hold files, symbolic links and directories, together with the
directory in which relative paths start. An entry of the tree is told by its place, the names on the way
to it from the root.
-/

namespace PyBundle

/-- **An entry of a file system.** A directory may be listed in any order, and of two entries of one name
the first one counts. -/
inductive Node where
  | file (content : ByteArray) (executable : Bool)
  | link (target : String)
  | directory (entries : List (String × Node))
  deriving Inhabited

/-- The way to an entry from the root. -/
abbrev Place := List String

/-- The entries of a directory. -/
abbrev Entries := List (String × Node)

namespace Node

/-- Whether an entry is a directory. -/
def isDirectory : Node → Bool
  | directory _ => true
  | _ => false

/-- Whether an entry is a symbolic link. -/
def isLink : Node → Bool
  | link _ => true
  | _ => false

/-- Whether an entry is a file. -/
def isFile : Node → Bool
  | file _ _ => true
  | _ => false

/-- **The entry at a place below an entry.** -/
def get? : Node → Place → Option Node
  | n, [] => some n
  | directory entries, name :: rest =>
    match entries.lookup name with
    | some n => n.get? rest
    | none => none
  | _, _ :: _ => none

/-- Entries after one of them is changed. A new one comes last. -/
def setEntry (name : String) (n? : Option Node) (entries : Entries) : Entries :=
  match n? with
  | none => entries.filter (·.1 != name)
  | some n =>
    if (entries.lookup name).isSome then entries.map fun e => if e.1 == name then (name, n) else e
    else entries ++ [(name, n)]

/-- **Changes the entry at a place below an entry.** Nothing changes if the way there leads through
something that is no directory. -/
def alter (change : Option Node → Option Node) : Option Node → Place → Option Node
  | n?, [] => change n?
  | some (directory entries), name :: rest =>
    some (directory (setEntry name (alter change (entries.lookup name) rest) entries))
  | n?, _ :: _ => n?

/-- The names in a directory. -/
def namesOf (entries : Entries) : List String := (entries.map (·.1)).eraseDups

end Node

/-- **A file system as seen from a directory.** -/
structure FileSystem where
  /-- The entries of the root. -/
  entries : Entries
  /-- The directory in which relative paths start. -/
  workPlace : Place := []
  deriving Inhabited

namespace FileSystem

/-- The root. -/
def root (fs : FileSystem) : Node := .directory fs.entries

/-- **The entry at a place.** -/
def get? (fs : FileSystem) (place : Place) : Option Node := fs.root.get? place

/-- **Changes the entry at a place.** The root itself stays a directory. -/
def alter (fs : FileSystem) (place : Place) (change : Option Node → Option Node) : FileSystem :=
  match Node.alter change (some fs.root) place with
  | some (.directory entries) => { fs with entries }
  | _ => fs

/-- Puts an entry at a place. -/
def put (fs : FileSystem) (place : Place) (n : Node) : FileSystem := fs.alter place fun _ => some n

/-- Removes the entry at a place and all below it. -/
def erase (fs : FileSystem) (place : Place) : FileSystem := fs.alter place fun _ => none

/-- The path of the directory in which relative paths start. -/
def workPath (fs : FileSystem) : Path := ⟨"/" ++ "/".intercalate fs.workPlace⟩

end FileSystem

end PyBundle
