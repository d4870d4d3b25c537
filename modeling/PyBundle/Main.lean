import PyBundle.Command.Reach
import PyBundle.Command.Run
import PyBundle.Report.Timestamp
import PyBundle.Shell.Host
import PyBundle.Syntax.Python
import Std.Time.DateTime.Timestamp

/-!
# The command

The part of the disk that a run reaches is read, the run takes place on what was read, and then the changes
are written. A link on the disk is read as a link to where it leads.
-/

namespace PyBundle.Disk

/-- The path on the disk of a text. -/
def located (text : String) := do return (← IO.currentDir) / text

/-- What kind of entry is at a path, where links are not followed. -/
def kindAt? (text : String) : IO (Option IO.FS.FileType) := do
  try return some (← (← located text).symlinkMetadata).type catch _ => return none

/-- Where a link leads. -/
def targetOf (text : String) : IO String := do
  try return (← IO.FS.realPath (← located text)).toString catch _ => return text

/-- Whether a file can be executed, told by its first bytes. -/
def looksExecutable (content : ByteArray) : Bool :=
  let start := content.toList.take 4
  start.take 2 == "#!".toUTF8.toList || start == 127 :: "ELF".toUTF8.toList

/-- Reads an entry with all below it, and tells where its links lead. -/
partial def readEntry (text : String) : IO (Option Node × List String) := do
  match ← kindAt? text with
  | some .dir =>
    let mut entries : Entries := []
    let mut targets : List String := []
    for e in ← (← located text).readDir do
      let (n?, more) ← readEntry (text ++ "/" ++ e.fileName)
      targets := more ++ targets
      if let some n := n? then entries := (e.fileName, n) :: entries
    return (some (.directory entries.reverse), targets)
  | some .file =>
    let content ← IO.FS.readBinFile (← located text)
    return (some (.file content (looksExecutable content)), [])
  | some .symlink =>
    let target ← targetOf text
    return (some (.link target), [target])
  | _ => return (none, [])

/-- The place of an absolute path. -/
def placeOf (text : String) : Place := (text.splitOn "/").filter (· != "")

/-- The path of a place. -/
def textOf (place : Place) : String := "/" ++ "/".intercalate place

/-- Adds what is at some absolute paths to a file system, with the directories and links on the way there.
Every path is added once. -/
partial def addAll (fs : FileSystem) (seen : List Place) : List (Place × Place) → IO FileSystem
  | [] => return fs
  | (before, rest) :: todo => do
    match rest with
    | [] =>
      if seen.any (·.isPrefixOf before) then addAll fs seen todo
      else
        let (n?, targets) ← readEntry (textOf before)
        let fs := match n? with
          | some n => fs.put before n
          | none => fs
        addAll fs (before :: seen) (targets.map (fun t => ([], placeOf t)) ++ todo)
    | ".." :: rest => addAll fs seen ((before.dropLast, rest) :: todo)
    | name :: rest =>
      let here := before ++ [name]
      match ← kindAt? (textOf here) with
      | some .dir =>
        let fs := if (fs.get? here).isSome then fs else fs.put here (.directory [])
        addAll fs seen ((here, rest) :: todo)
      | some .symlink =>
        let target ← targetOf (textOf here)
        let fs := fs.put here (.link target)
        addAll fs seen (if target == textOf here then todo else ([], placeOf target ++ rest) :: todo)
      | some .file => addAll fs seen ((here, []) :: todo)
      | _ => addAll fs seen todo

/-- Reads what is at some paths. -/
def read (paths : List Path) : IO FileSystem := do
  let here := (← IO.currentDir).toString
  let start : FileSystem := { entries := [], workPlace := placeOf here }
  let start := (List.range start.workPlace.length).foldl
    (fun fs n => fs.put (start.workPlace.take (n + 1)) (.directory [])) start
  let absolute := paths.filterMap (·.absolute? ⟨here⟩)
  addAll start [] (absolute.map fun p => ([], placeOf p.text))

/-- Removes what is at a path. -/
def remove (text : String) : IO Unit := do
  match ← kindAt? text with
  | some .dir => IO.FS.removeDirAll (← located text)
  | some _ => IO.FS.removeFile (← located text)
  | none => return

/-- Writes what has changed at a path. -/
partial def write (text : String) (old new : Option Node) : IO Unit := do
  match old, new with
  | some (.directory before), some (.directory after) =>
    for name in (Node.namesOf before ++ Node.namesOf after).eraseDups do
      write (text ++ "/" ++ name) (before.lookup name) (after.lookup name)
  | _, some (.directory after) =>
    remove text
    IO.FS.createDir (← located text)
    for name in Node.namesOf after do
      write (text ++ "/" ++ name) none (after.lookup name)
  | some (.file before _), some (.file after executable) =>
    if before.toList != after.toList then writeFile after executable
  | _, some (.file after executable) => writeFile after executable
  | some _, none => remove text
  | _, _ => return
where
  /-- Writes a file with its mode. -/
  writeFile (content : ByteArray) (executable : Bool) : IO Unit := do
    IO.FS.writeBinFile (← located text) content
    if executable then
      let all : IO.AccessRight := ⟨true, true, true⟩
      let some_ : IO.AccessRight := ⟨true, false, true⟩
      IO.setAccessRights (← located text) ⟨all, some_, some_⟩

end PyBundle.Disk

namespace PyBundle

/-- The directories in which programs are looked for. -/
def programDirectories : IO (List Path) := do
  let text := (← IO.getEnv "PATH").getD "/usr/bin:/bin"
  return ((text.splitOn ":").filter (· != "")).map Path.mk

/-- What is told about a run that starts now. -/
def currentMetadata : IO RunMetadata := do
  let now := (← Std.Time.Timestamp.now).toNanosecondsSinceUnixEpoch.val.toNat
  return ⟨0, Timestamp.display (now / 1000000000) (now % 1000000000), Command.toolVersion⟩

end PyBundle

open PyBundle

/-- **Runs the command** with the arguments that it is given. -/
def main (arguments : List String) : IO UInt32 := do
  let searchPath ← programDirectories
  let reach := match Command.request? arguments with
    | some (.run a) => a.reach searchPath
    | _ => []
  let files ← Disk.read reach
  let parse (source : String) := Syntax.readImports (Syntax.pythonTable ()) source
  let (answer, changed) := Command.run (Shell.host searchPath) parse (← currentMetadata) files arguments
  Disk.write "" (some files.root) (some changed.root)
  IO.print answer.printed
  IO.eprint answer.told
  return UInt32.ofNat answer.exitCode
