import PyBundle.Path.Basic

/-!
# Local modules

A local module is a source file that an import reaches.
-/

namespace PyBundle

/-- **A module that is a file.** -/
structure LocalModule where
  /-- The path of the file. -/
  absolutePath : Path
  /-- The path from the search root, which is also the path in the bundle. -/
  relativePath : Path
  /-- Whether the file is the `__init__.py` of a package. -/
  isPackage : Bool
  /-- The dotted name under which the module is imported. The entry has none. -/
  moduleName : String
  deriving DecidableEq, Repr, Inhabited

namespace LocalModule

/-- **The module that a program starts with.** Its path in the bundle is its file name alone. -/
def entry (p : Path) : LocalModule where
  absolutePath := p
  relativePath := (p.fileName?.map Path.mk).getD p
  isPackage := false
  moduleName := ""

/-- **Whether two modules are the same.** How their paths are written does not count. -/
def sameAs (m n : LocalModule) : Bool :=
  m.absolutePath.sameAs n.absolutePath && m.relativePath.sameAs n.relativePath &&
    m.isPackage == n.isPackage && m.moduleName == n.moduleName

/-- How a module is shown to the user. -/
def display (m : LocalModule) : String :=
  s!"ImportTarget(module={m.moduleName}, path={m.relativePath.text})"

end LocalModule

end PyBundle
