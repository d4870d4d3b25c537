import PyBundle.Import.Line

/-!
# Syntax trees

A syntax tree as it is read for imports: nodes of some kinds, each with the stretch of source it
covers and its children in order. `Tree.firstInvalid?` finds the first node that makes a source
invalid (`ParseError.invalid`), and `Tree.imports` collects the import lines of a valid one.

Positions are counted in characters. A tree does not hold its text, so reading names out of it takes
a way to look up text and lines (`Text`).
-/

namespace PyBundle.Syntax

/-- **The kinds of nodes** that are told apart when imports are read. -/
inductive Kind where
  /-- Source that does not fit the grammar. -/
  | error
  /-- The statement `print` of Python 2. -/
  | printStatement
  /-- The statement `exec` of Python 2. -/
  | execStatement
  /-- `import a.b, c as d`. -/
  | importStatement
  /-- `from a import b`, also with leading dots. -/
  | fromStatement
  /-- `from __future__ import a`. -/
  | futureStatement
  /-- Identifiers joined by dots. -/
  | dottedName
  /-- `a.b as c`. -/
  | aliasedName
  /-- Leading dots, perhaps with a name behind them. -/
  | relativeName
  /-- The dots of a relative name. -/
  | dots
  /-- The star of `from a import *`. -/
  | wildcard
  /-- The keyword `import`. -/
  | importWord
  /-- Any other node. -/
  | other
  deriving BEq, DecidableEq, Repr, Inhabited

/-- **A syntax tree.** A missing node stands for a token that the source lacks. -/
inductive Tree where
  | node (kind : Kind) (missing : Bool) (start stop : Nat) (children : List Tree)
  deriving Repr, Inhabited

namespace Tree

def kind : Tree → Kind
  | node k _ _ _ _ => k

def isMissing : Tree → Bool
  | node _ m _ _ _ => m

def start : Tree → Nat
  | node _ _ s _ _ => s

def stop : Tree → Nat
  | node _ _ _ s _ => s

def children : Tree → List Tree
  | node _ _ _ _ ts => ts

/-- **Whether a node makes the source invalid:** it is an error or missing, or a statement that only
Python 2 knows. -/
def isInvalid (t : Tree) : Bool :=
  t.isMissing || match t.kind with
    | .error => true
    | .printStatement => true
    | .execStatement => true
    | _ => false

/-! ## Validity -/

mutual
/-- **The first invalid node** in pre-order. -/
def firstInvalid? : Tree → Option Tree
  | node k m a b ts =>
    if (node k m a b ts).isInvalid then some (node k m a b ts) else firstInvalidOf? ts
/-- The first invalid node of several trees. -/
def firstInvalidOf? : List Tree → Option Tree
  | [] => none
  | t :: ts => (firstInvalid? t).or (firstInvalidOf? ts)
end

end Tree

/-- **Why a source text has no import lines.** -/
inductive ParseError where
  /-- The parser came to no tree. -/
  | noTree
  /-- The source is invalid at a line, counted from 1, and a column, counted in bytes from 0. -/
  | invalid (line column : Nat)
  deriving BEq, DecidableEq, Repr, Inhabited

/-- The text of a parse error. -/
def ParseError.message : ParseError → String
  | .noTree => "Parser produced no syntax tree"
  | .invalid line column => s!"Invalid Python syntax at line {line}, column {column}"

/-! ## Imports -/

/-- **How the text of a tree is looked up.** -/
structure Text where
  /-- The text between two positions. -/
  slice : Nat → Nat → String
  /-- The line of a position, counted from 1. -/
  line : Nat → Nat

namespace Tree

/-- The text of a node. -/
def text (x : Text) (t : Tree) : String := x.slice t.start t.stop

/-- The children of some kind. -/
def childrenOf (k : Kind) (t : Tree) : List Tree := t.children.filter (·.kind == k)

/-- **The name that an import list mentions:** a dotted name itself, and of an aliased name the
original. -/
def name? (x : Text) (t : Tree) : Option String :=
  match t.kind with
  | .dottedName => some (t.text x)
  | .aliasedName => (t.childrenOf .dottedName).head?.map (·.text x)
  | _ => none

/-- The nodes of an import statement before its keyword `import`, and those behind it. -/
def splitAtImport (t : Tree) : List Tree × List Tree :=
  t.children.span (·.kind != .importWord)

/-- The names in an import list, except empty ones. -/
def namesIn (x : Text) (ts : List Tree) : List String :=
  (ts.filterMap (·.name? x)).filter (· != "")

/-- `import a.b, c as d` makes a line for each module, with the line of the name. -/
def importLines (x : Text) (t : Tree) : List ImportLine :=
  (t.children.filterMap fun c => (c.name? x).map fun n => (n, c)).filterMap fun (n, c) =>
    if n == "" then none else some { moduleName := n, line := x.line c.start }

/-- The level and the name of a relative name. -/
def relative (x : Text) (t : Tree) : Nat × String :=
  let level := (t.childrenOf .dots).getLast?.elim 0 fun d => (d.text x).toList.count '.'
  let name := (t.childrenOf .dottedName).getLast?.elim "" (·.text x)
  (level, name)

/-- The level and the name of the module of `from a import b`. -/
def moduleOf? (x : Text) (t : Tree) : Option (Nat × String) :=
  t.splitAtImport.1.findSome? fun c =>
    match c.kind with
    | .relativeName => some (c.relative x)
    | .dottedName => some (0, c.text x)
    | _ => none

/-- `from a import b, c` makes one line, with the line of the statement. -/
def fromLine? (x : Text) (t : Tree) : Option ImportLine :=
  (t.moduleOf? x).map fun (level, moduleName) =>
    let names := namesIn x t.splitAtImport.2
    let all := if t.children.any (·.kind == .wildcard) then ["*"] else []
    { moduleName, level, items := names ++ all, line := x.line t.start }

/-- The line of an import from the future. -/
def futureLine (x : Text) (t : Tree) : ImportLine :=
  { moduleName := "__future__", items := namesIn x t.splitAtImport.2, line := x.line t.start }

mutual
/-- **The import lines of a tree,** in the order of the source. -/
def imports (x : Text) : Tree → List ImportLine
  | node k m a b ts =>
    match k with
    | .importStatement => importLines x (node k m a b ts)
    | .fromStatement => (fromLine? x (node k m a b ts)).toList
    | .futureStatement => [futureLine x (node k m a b ts)]
    | _ => importsOf x ts
/-- The import lines of several trees. -/
def importsOf (x : Text) : List Tree → List ImportLine
  | [] => []
  | t :: ts => imports x t ++ importsOf x ts
end

end Tree

end PyBundle.Syntax
