/-!
# Paths

A path is kept as it is written, because that is how it is shown. Its meaning is the list of its
components: empty ones say nothing, and a `.` only counts at the front of a relative path.
-/

namespace PyBundle

/-- **A path, as it is written.** -/
structure Path where
  text : String
  deriving DecidableEq, Repr, Inhabited

namespace Path

/-- **One step of a path.** -/
inductive Component where
  /-- The slash at the front of an absolute path. -/
  | root
  /-- The `.` at the front of a relative path. -/
  | here
  /-- A `..`. -/
  | up
  /-- Any other name. -/
  | name (text : String)
  deriving DecidableEq, Repr, Inhabited

/-- How a component is written. -/
def Component.text : Component → String
  | root => "/"
  | here => "."
  | up => ".."
  | name s => s

/-- The name in a component. -/
def Component.name? : Component → Option String
  | name s => some s
  | _ => none

/-- What stands between two slashes of a path, as a component. Nothing and `.` are none. -/
def Component.ofPiece? (piece : List Char) : Option Component :=
  match piece with
  | [] => none
  | ['.'] => none
  | ['.', '.'] => some up
  | cs => some (name (String.ofList cs))

/-- What stands between the slashes of a path. -/
def pieces (p : Path) : List (List Char) := p.text.toList.splitOn '/'

/-- Whether a path starts at the root. -/
def isAbsolute (p : Path) : Bool := p.text.toList.head? == some '/'

/-- **The components of a path.** -/
def components (p : Path) : List Component :=
  match p.pieces with
  | [] => []
  | first :: rest =>
    let start :=
      if p.isAbsolute then some Component.root
      else if first = ['.'] then some .here
      else Component.ofPiece? first
    start.toList ++ rest.filterMap Component.ofPiece?

/-- Whether two paths have the same components. -/
def sameAs (p q : Path) : Bool := p.components == q.components

/-- Whether nothing is written. -/
def isEmpty (p : Path) : Bool := p.text == ""

/-- Whether the path ends with a slash. -/
def endsWithSlash (p : Path) : Bool := p.text.toList.getLast? == some '/'

/-! ## Joining -/

/-- **A path followed by another.** An absolute path replaces what stands before it, and an empty one
leaves a slash at the end. -/
def join (p q : Path) : Path :=
  if q.isAbsolute || p.isEmpty then q
  else if p.endsWithSlash then ⟨p.text ++ q.text⟩
  else ⟨p.text ++ "/" ++ q.text⟩

/-- A path followed by one name or more of a text. -/
def push (p : Path) (s : String) : Path := p.join ⟨s⟩

/-- **The path that some components make up.** -/
def ofComponents (cs : List Component) : Path :=
  cs.foldl (fun p c => p.push c.text) ⟨""⟩

/-! ## The last component -/

/-- **The name at the end of a path,** if its last component is a name. -/
def fileName? (p : Path) : Option String := p.components.getLast?.bind (·.name?)

/-- Pieces without those at their end that are no component. -/
def dropBlankEnd (pieces : List (List Char)) : List (List Char) :=
  (pieces.reverse.dropWhile fun piece => (Component.ofPiece? piece).isNone).reverse

/-- Pieces as they are written. -/
def joinPieces (pieces : List (List Char)) : String :=
  "/".intercalate (pieces.map String.ofList)

/-- **The path without its last component.** What is left stays as it is written, except that it ends
with a component. The root and the empty path have no parent. -/
def parent? (p : Path) : Option Path :=
  match p.pieces with
  | [] => none
  | first :: rest =>
    let start := if p.isAbsolute then "/" else if first = ['.'] then "." else ""
    -- the slash behind a leading `.` is written, and the one of the root is its start
    let body :=
      if p.isAbsolute then rest
      else if first = ['.'] then (if rest.isEmpty then [] else [] :: rest)
      else first :: rest
    match (dropBlankEnd body).reverse with
    | _ :: before => some ⟨start ++ joinPieces (dropBlankEnd before.reverse)⟩
    | [] => if start == "." then some ⟨""⟩ else none

/-! ## Absolute paths -/

/-- **A path as seen from a directory, made absolute.** Blank components go, each `..` stays, and so do
a slash at the end and two slashes at the front, but not three. An empty path has no absolute form. -/
def absolute? (p directory : Path) : Option Path :=
  if p.isEmpty then none
  else
    let steps := p.components.filter (· != .here)
    let doubled := p.text.startsWith "//" && !p.text.startsWith "///"
    let made :=
      if doubled then (steps.drop 1).foldl (fun made c => made.push c.text) ⟨"//"⟩
      else if p.isAbsolute then ofComponents steps
      else steps.foldl (fun made c => made.push c.text) directory
    some (if p.endsWithSlash then made.push "" else made)

end Path

end PyBundle
