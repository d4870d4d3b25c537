import PyBundle.Distribution.Pin
import PyBundle.Module.Local

/-!
# Reports

What is told about a bundle that has been written: the result, which other programs read, and the report,
which says all that is in the bundle.
-/

namespace PyBundle

/-- **The result of a run.** Its values are texts, so that it can be read where nothing else is known. -/
structure BuildResult where
  success : String
  buildDirectory : String
  deriving DecidableEq, Repr, Inhabited

/-- The result of a run that has written a bundle. -/
def BuildResult.succeeded (directory : String) : BuildResult := ⟨"true", directory⟩

/-- **The numbers of a report.** -/
structure Stats where
  importLines : Nat := 0
  localModules : Nat := 0
  stdlibModules : Nat := 0
  externalModules : Nat := 0
  unknownModules : Nat := 0
  installedDependencies : Nat := 0
  deriving DecidableEq, Repr, Inhabited

/-- **When a report was made, and by which version of this program.** -/
structure RunMetadata where
  durationMs : Nat
  timestamp : String
  toolVersion : String
  deriving DecidableEq, Repr, Inhabited

/-- **All that is told about a bundle.** -/
structure Report where
  entryFile : Path
  exportDirectory : Path
  /-- The directories below which modules were looked for. -/
  searchRoots : List Path
  modules : List LocalModule
  stdlibModules : List String
  externalModules : List Pin
  unknownModules : List String := []
  /-- The directories that were copied. -/
  additionalModules : List Path := []
  manifest : Option Path := none
  stats : Stats
  metadata : RunMetadata
  deriving DecidableEq, Repr, Inhabited

end PyBundle
