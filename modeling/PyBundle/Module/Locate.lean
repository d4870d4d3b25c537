import PyBundle.FileSystem.Resolve
import PyBundle.Import.Name
import PyBundle.Module.Local

/-!
# Where a module is found

A dotted name is looked up below each search root in order. In a root, a package wins over a plain
module of the same name.
-/

namespace PyBundle.LocalModule

/-- **The path of a module below its root:** each segment but the last one is a directory. -/
def candidatePath (segments : List String) (isPackage : Bool) : Path :=
  match segments.getLast? with
  | none => ⟨""⟩
  | some last =>
    let parents := segments.dropLast.foldl Path.push ⟨""⟩
    if isPackage then (parents.push last).push "__init__.py" else parents.push (last ++ ".py")

/-- The module of a name in one of its forms below a root, if that is a file. -/
def locateAt (fs : FileSystem) (root : Path) (name : String) (isPackage : Bool) : Option LocalModule :=
  let relativePath := candidatePath (DottedName.segments name) isPackage
  let absolutePath := root.join relativePath
  if fs.isFile absolutePath then
    some { absolutePath, relativePath, isPackage, moduleName := name }
  else none

/-- **The module of a dotted name.** A name with an empty segment has none. -/
def locate (fs : FileSystem) (roots : List Path) (name : String) : Option LocalModule :=
  if (DottedName.segments name).contains "" then none
  else
    roots.findSome? fun root =>
      [true, false].findSome? fun isPackage => locateAt fs root name isPackage

end PyBundle.LocalModule
