import PyBundle.Distribution.Name
import PyBundle.FileSystem.Reading

/-!
# Installed distributions

What a distribution leaves behind when it is installed: an entry of a directory that says its name, its
version and which files belong to it. The names under which it is imported are listed there, or they are
the names of its files.
-/

namespace PyBundle

/-- **An installed distribution.** -/
structure Distribution where
  name : String
  version : Option String
  /-- The names under which it is imported. -/
  importNames : List String
  deriving DecidableEq, Repr, Inhabited

namespace Distribution

/-! ## Headers -/

/-- The lines before the first blank one. -/
def headerLines (text : String) : List (List Char) :=
  (Text.lines text.toList).takeWhile fun line => !(Text.trim line).isEmpty

/-- **The value of a header,** which counts where it stands first. -/
def header? (field : String) (lines : List (List Char)) : Option String :=
  lines.findSome? fun line =>
    (field.toList.isPrefixOf? line).map fun value => String.ofList (Text.trim value)

/-- The name and the version in a text of headers, where no name is empty and neither is a version. -/
def nameAndVersion? (text : String) : Option (String × Option String) :=
  let lines := headerLines text
  ((header? "Name:" lines).filter (· != "")).map fun name =>
    (name, (header? "Version:" lines).filter (· != ""))

/-! ## Names of imports -/

/-- The lines of a file without blanks at their ends, if the file can be read. Blank lines do not count. -/
def listedLines? (fs : FileSystem) (p : Path) : Option (List String) :=
  (fs.readText p).toOption.map fun text =>
    ((Text.lines text.toList).map fun line => String.ofList (Text.trim line)).filter (· != "")

/-- The endings of the files that are modules by themselves. -/
def moduleEndings : List String := [".py", ".pyc", ".so", ".pyd"]

/-- **The name under which an installed file is imported:** its first directory, or its name up to the
first dot, if it is a module. -/
def importNameOfFile? (file : String) : Option String :=
  match (Text.trim file.toList).splitOn '/' with
  | [] => none
  | [name] =>
    if moduleEndings.any fun ending => ending.toList.isSuffixOf name then
      some (String.ofList (name.takeWhile (· != '.')))
    else none
  | directory :: _ => some (String.ofList directory)

/-- The first field of a line. -/
def firstField (line : String) : String := String.ofList (line.toList.takeWhile (· != ','))

/-- A path without the steps up at its front. -/
def dropStepsUp : List Char → List Char
  | '.' :: '.' :: '/' :: cs => dropStepsUp cs
  | cs => cs

/-- Whether a name is an identifier of ASCII letters, digits and underscores. -/
def isPlainIdentifier (name : String) : Bool :=
  match name.toList with
  | [] => false
  | c :: cs => (c.isAlpha || c == '_') && cs.all fun c => c.isAlphanum || c == '_'

/-- **The names that can be imported,** each of them once. -/
def importable (names : List String) : List String :=
  (names.filter fun name => name != "__pycache__" && isPlainIdentifier name).eraseDups

/-! ## Entries -/

/-- **What an entry of a site directory says.** -/
inductive Entry where
  | distribution (d : Distribution)
  /-- A directory for metadata that has none. -/
  | withoutMetadata (directory : Path)
  /-- Nothing about a distribution. -/
  | nothing
  deriving DecidableEq, Repr, Inhabited

/-- The entry of a text of headers, where some names are claimed. -/
def Entry.ofHeaders (text : String) (names : List String) : Entry :=
  match nameAndVersion? text with
  | some (name, version) => .distribution { name, version, importNames := importable names }
  | none => .nothing

/-- The names that a metadata directory claims: those it lists, or those of the recorded files, whose
paths start in the site directory. -/
def recordedNames (fs : FileSystem) (directory : Path) : List String :=
  match listedLines? fs (directory.push "top_level.txt") with
  | some names => names
  | none =>
    match listedLines? fs (directory.push "RECORD") with
    | some lines => lines.filterMap fun line => importNameOfFile? (firstField line)
    | none => []

/-- The names that an older metadata directory claims: those it lists, or those of its files, whose steps
up do not count. -/
def listedNames (fs : FileSystem) (directory : Path) : List String :=
  match listedLines? fs (directory.push "top_level.txt") with
  | some names => names
  | none =>
    let files? :=
      match listedLines? fs (directory.push "installed-files.txt") with
      | some files => some files
      | none => listedLines? fs (directory.push "SOURCES.txt")
    (files?.getD []).filterMap fun file => importNameOfFile? (String.ofList (dropStepsUp file.toList))

/-- What a metadata directory says. -/
def ofDistInfo (fs : FileSystem) (directory : Path) : Entry :=
  match fs.readText (directory.push "METADATA") with
  | .error _ => .withoutMetadata directory
  | .ok text => .ofHeaders text (recordedNames fs directory)

/-- What an older metadata directory says, or a file in its place, which has headers alone. -/
def ofEggInfo (fs : FileSystem) (p : Path) : Entry :=
  let isDirectory := fs.isDirectory p
  match fs.readText (if isDirectory then p.push "PKG-INFO" else p) with
  | .error _ => .nothing
  | .ok text => .ofHeaders text (if isDirectory then listedNames fs p else [])

/-- **What an entry of a site directory says,** as its name tells. -/
def ofEntry (fs : FileSystem) (root : Path) (name : String) : Entry :=
  let p := root.push name
  if name.endsWith ".dist-info" && fs.isDirectory p then ofDistInfo fs p
  else if name.endsWith ".egg-info" then ofEggInfo fs p
  else .nothing

/-- Whether a name comes before another or with it. -/
def nameBefore (a b : String) : Bool := !decide (b < a)

/-- **What the entries of a site directory say,** in the order of their names. A directory that cannot be
read says nothing. -/
def entriesOf (fs : FileSystem) (root : Path) : List Entry :=
  match fs.list root with
  | .error _ => []
  | .ok entries => ((Node.namesOf entries).mergeSort nameBefore).map (ofEntry fs root)

end Distribution

end PyBundle
