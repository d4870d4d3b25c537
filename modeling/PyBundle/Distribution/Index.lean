import PyBundle.Classify.Basic
import PyBundle.Distribution.Metadata
import PyBundle.Log.Record

/-!
# The index of installed distributions

The index says which distribution provides an import and which version of it is installed. Whoever claims
an import first provides it, and the version that is read first counts.
-/

namespace PyBundle.Distribution

/-- **What is known about the installed distributions.** -/
structure Index where
  /-- The distribution of each import name. -/
  providers : List (String × String) := []
  /-- The version of each distribution under its normal name. -/
  versions : List (String × String) := []
  deriving DecidableEq, Repr, Inhabited

/-- A table with an entry for a key that has none yet. -/
def insertNew (table : List (String × String)) (key value : String) : List (String × String) :=
  if (table.lookup key).isSome then table else table ++ [(key, value)]

namespace Index

/-- **The index after a further distribution.** -/
def add (index : Index) (d : Distribution) : Index where
  providers := d.importNames.foldl (fun table name => insertNew table name d.name) index.providers
  versions :=
    match d.version with
    | some version => insertNew index.versions (normalizeName d.name) version
    | none => index.versions

/-- The index after what an entry of a site directory says. -/
def addEntry (index : Index) : Entry → Index
  | .distribution d => index.add d
  | _ => index

/-- What is told about an entry of a site directory. -/
def recordOf : Entry → Log
  | .withoutMetadata directory => [.debug s!"Skipping {directory.text} without METADATA"]
  | _ => []

/-- **The index of the distributions in some site directories,** and what is told about them. -/
def ofRoots (fs : FileSystem) (roots : List Path) : Index × Log :=
  let entries := roots.flatMap (entriesOf fs)
  (entries.foldl addEntry {}, entries.flatMap recordOf)

/-- **The distribution that provides an import.** -/
def providerOf (index : Index) (importName : String) : Option String := index.providers.lookup importName

/-- **The installed version of a distribution,** however it is spelled. -/
def versionOf (index : Index) (name : String) : Option String := index.versions.lookup (normalizeName name)

/-- The number of distributions whose version is known. -/
def size (index : Index) : Nat := index.versions.length

/-- Whether nothing is known. -/
def isEmpty (index : Index) : Bool := index.providers.isEmpty && index.versions.isEmpty

/-- **What a top-level name belongs to.** The standard library wins over distributions, and a distribution
without a version is as good as none. -/
def classify (index : Index) (topLevel : String) : Classification :=
  if isStandard topLevel then .stdlib
  else
    match index.providerOf topLevel with
    | none => .unknown
    | some name =>
      match index.versionOf name with
      | some version => .external ⟨name, version⟩
      | none => .unknown

end Index

end PyBundle.Distribution
