import PyBundle.FileSystem.Reading
import PyBundle.Glob.Match

/-!
# What is to be bundled

A configuration says which script is bundled and where. It is checked before anything is changed.
-/

namespace PyBundle

/-- **The machine for which dependencies are installed.** -/
inductive Architecture where
  | x86_64
  | arm64
  deriving DecidableEq, Repr, Inhabited

/-- The name of the platform of a machine. -/
def Architecture.platformTag : Architecture → String
  | x86_64 => "manylinux2014_x86_64"
  | arm64 => "manylinux2014_aarch64"

/-- **Why a configuration is refused.** -/
inductive ConfigError where
  | entryNotFound (entry : Path)
  | emptyExportDirectory
  | missingArchitecture
  | badGlob (glob : String) (reason : Glob.Error)
  | fault (f : Fault)
  deriving Repr, Inhabited

/-- The text of a refusal. -/
def ConfigError.message : ConfigError → String
  | entryNotFound entry => s!"Entry file not found: {entry.text}"
  | emptyExportDirectory => "Export directory must not be empty"
  | missingArchitecture => "Installing dependencies requires an architecture (x86_64 or arm64)"
  | badGlob glob reason => s!"Failed to build glob pattern: {reason.message glob}"
  | fault f => s!"IO error: {f.message}"

/-- **Paths without those that have been given before.** How a path is written does not count, and the
first way stays. -/
def distinctPaths (paths : List Path) : List Path :=
  paths.foldl (fun kept p => if kept.any p.sameAs then kept else kept ++ [p]) []

/-- **What is bundled, and how.** -/
structure Config where
  /-- The script that is bundled with what it imports. -/
  entryFile : Path
  /-- The directory of the bundle. What is there is replaced. -/
  exportDirectory : Path
  /-- The directories below which modules are found, after the one of the entry. -/
  searchPaths : List Path := []
  /-- Directories that are copied into the bundle as they are. -/
  additionalModules : List Path := []
  /-- Lines at the end of the manifest. -/
  extraRequirements : List String := []
  /-- What is installed into the bundle. -/
  installDependencies : List String := []
  architecture : Option Architecture := none
  /-- Whether a manifest is written. -/
  generateManifest : Bool := true
  /-- The globs of what is left out of the copied directories. -/
  excludePatterns : List String := []
  /-- The directories of the installed distributions. If there are none, the interpreter tells them. -/
  sitePackages : List Path := []
  python : String := "python3"
  pip : String := "pip"
  deriving Inhabited

namespace Config

/-- The configuration with other search paths. -/
def withSearchPaths (c : Config) (paths : List Path) : Config := { c with searchPaths := distinctPaths paths }

/-- The configuration with other directories to copy. -/
def withAdditionalModules (c : Config) (paths : List Path) : Config :=
  { c with additionalModules := distinctPaths paths }

/-- The configuration with other directories of installed distributions. -/
def withSitePackages (c : Config) (paths : List Path) : Config := { c with sitePackages := distinctPaths paths }

/-- **The filter of what is left out.** -/
def filter (c : Config) : Except ConfigError Glob.Filter :=
  (Glob.Filter.of c.excludePatterns).mapError fun (glob, reason) => .badGlob glob reason

/-- **Whether a configuration can be used.** -/
def validate (c : Config) (fs : FileSystem) : Except ConfigError Unit :=
  if !fs.isFile c.entryFile then .error (.entryNotFound c.entryFile)
  else if c.exportDirectory.isEmpty then .error .emptyExportDirectory
  else if !c.installDependencies.isEmpty && c.architecture.isNone then .error .missingArchitecture
  else c.filter.map fun _ => ()

/-- An absolute form of a path of the configuration. -/
def absolute (fs : FileSystem) (p : Path) : Except ConfigError Path := (fs.absolute p).mapError .fault

/-- **The directories below which modules are found:** the one of the entry and the search paths. -/
def searchRoots (c : Config) (fs : FileSystem) : Except ConfigError (List Path) := do
  let entry ← absolute fs c.entryFile
  let roots ← c.searchPaths.mapM (absolute fs)
  return distinctPaths (entry.parent?.getD ⟨"/"⟩ :: roots)

end Config

end PyBundle
