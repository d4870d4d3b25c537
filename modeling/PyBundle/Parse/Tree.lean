import PyBundle.Parse.Run
import PyBundle.Syntax.Tree

/-!
# From branches to syntax trees

The parser's branches become a syntax tree: hidden nodes give way to their parts, and the names of the
grammar's rules become the kinds of nodes that imports are read from.
-/

namespace PyBundle.Parse

open Automaton (Table)
open Syntax (Tree)

/-- The kind of a node by its name in the grammar. -/
def kindOfName : String → Syntax.Kind
  | "print_statement" => .printStatement
  | "exec_statement" => .execStatement
  | "import_statement" => .importStatement
  | "import_from_statement" => .fromStatement
  | "future_import_statement" => .futureStatement
  | "dotted_name" => .dottedName
  | "aliased_import" => .aliasedName
  | "relative_import" => .relativeName
  | "import_prefix" => .dots
  | "wildcard_import" => .wildcard
  | "import" => .importWord
  | _ => .other

/-- The kind of a branch's node. -/
def Branch.kind (t : Table) (b : Branch) : Syntax.Kind :=
  match b.symbol with
  | .of n => kindOfName (t.grammar.names.getD n "")
  | .skipped => .other
  | .error => .error

mutual
/-- **The visible nodes of a branch,** in front of those that follow it: its own node, under the name
`shown` if there is one, or those of its parts. -/
def Branch.treesBefore (t : Table) (shown : Option String) (rest : List Tree) : Branch → List Tree
  | .mk l parts =>
    let b := Branch.mk l parts
    let renamed := if b.isExtra || b.symbol == .of 0 then none else shown
    if renamed.isSome || b.isVisible t then
      .node (renamed.elim (b.kind t) kindOfName) l.missing l.start l.stop
        (Branch.treesOfParts t l.shown [] parts) :: rest
    else Branch.treesOfParts t l.shown rest parts
/-- The visible nodes of some parts, in front of those that follow. -/
def Branch.treesOfParts (t : Table) (shown : List (Option String)) (rest : List Tree) :
    List Branch → List Tree
  | [] => rest
  | b :: bs =>
    let later := if b.isExtra then shown else shown.tail
    Branch.treesBefore t (shown.head?.getD none) (Branch.treesOfParts t later rest bs) b
end

/-- **The syntax tree of a branch.** A root is a node of its own, whatever its name. -/
def Branch.toTree (t : Table) (b : Branch) : Tree :=
  .node (b.kind t) b.label.missing b.label.start b.label.stop
    (Branch.treesOfParts t b.label.shown [] b.parts)

end PyBundle.Parse
