import PyBundle.Path.Basic

/-!
# The lexical normal form of a path

`Path.normalize` folds each `..` into the name before it, without a look at any file system. The steps of
a path are taken onto a stack, whose top is the head of the list.
-/

namespace PyBundle.Path

/-- **Takes a step onto the stack.** A `..` takes back a name and says nothing at the root; otherwise it
stays. -/
def Component.climb (stack : List Component) : Component → List Component
  | here => stack
  | up =>
    match stack with
    | name _ :: below => below
    | root :: _ => stack
    | _ => up :: stack
  | c => c :: stack

/-- The components that are left of a path, in order. -/
def normalComponents (p : Path) : List Component :=
  (p.components.foldl Component.climb []).reverse

/-- **The normal form of a path.** A path of which nothing is left is the current directory. -/
def normalize (p : Path) : Path :=
  match p.normalComponents with
  | [] => ⟨"."⟩
  | cs => ofComponents cs

end PyBundle.Path
