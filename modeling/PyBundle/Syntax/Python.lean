import PyBundle.Grammar.Python
import PyBundle.Parse.Tree

/-!
# Reading Python source

`readImports` reads the import lines of a source text, or says where the source is not valid Python 3.
-/

namespace PyBundle.Syntax

open Automaton (Table)
open Lexer (Source)

/-- The parse table of Python. -/
def pythonTable (_ : Unit) : Table := Table.of Grammar.python.normalize

/-- How the text of a source is looked up. -/
def textOf (s : Source) : Text := ⟨s.slice, s.line⟩

/-- **The import lines of a tree over a source,** if the tree is valid. -/
def importsOfTree (s : Source) (tree : Tree) : Except ParseError (List ImportLine) :=
  match tree.firstInvalid? with
  | some bad => .error (.invalid (s.line bad.start) (s.column bad.start))
  | none => .ok (tree.imports (textOf s))

/-- **The import lines of a source text.** Imports inside functions, classes and conditions count.
Source that is invalid anywhere has none. -/
def readImports (t : Table) (source : String) : Except ParseError (List ImportLine) :=
  let s := Source.ofString source
  match Parse.parse t s with
  | none => .error .noTree
  | some branch => importsOfTree s (branch.toTree t)

end PyBundle.Syntax
