/-!
# Dotted names

A dotted name is its segments with a dot between any two. A text with two dots in a row, or with one at an
end, has empty segments.

A relative import names a module as seen from the package around its importer. The name of a module
says which package that is: the module itself, if it is a package, and what stands around it otherwise.
The file that a program starts with has no name and no package around it.
-/

namespace PyBundle

namespace DottedName

/-- **The segments of a dotted name:** what stands before, between and after its dots. -/
def segments (name : String) : List String := (name.toList.splitOn '.').map String.ofList

/-- **The dotted name of some segments.** -/
def ofSegments (segments : List String) : String := ".".intercalate segments

/-- A dotted name with a name behind it. -/
def append (name inner : String) : String := name ++ "." ++ inner

/-- **The names on the way to a dotted name:** its first segment, its first two segments, and so on up to
the name itself. -/
def ancestry (name : String) : List String :=
  let segments := segments name
  (List.range segments.length).map fun n => ofSegments (segments.take (n + 1))

end DottedName

/-! ## Relative imports -/

/-- **The absolute name of a relative import** of some level in a module. One level leads to the package
of the importer, and each further one leads out of a package. There is no name if a level leads out of
a package that is in none. -/
def resolveRelative (identity : String) (isPackage : Bool) (level : Nat) (inner : Option String) :
    Option String :=
  let climb := if isPackage then level - 1 else level
  let segments := (DottedName.segments identity).filter (· != "")
  if segments.length ≤ climb then none
  else
    let package := DottedName.ofSegments (segments.take (segments.length - climb))
    match inner.filter (· != "") with
    | none => some package
    | some inner => some (DottedName.append package inner)

end PyBundle
