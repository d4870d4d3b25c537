import PyBundle.Import.Name

/-!
# Import lines

What an import statement says, apart from how it is laid out: the module it names, how many levels it
climbs before, and which names it takes from the module.

An import of a module loads the packages around it first. A name that is taken from a module may be a
module inside it.
-/

namespace PyBundle

/-- **One import of a source file.** `import a, b` makes a line for each module, `from a import x, y` one
line with two items. -/
structure ImportLine where
  /-- The dotted name of the module. While `level` is positive it is relative to the importer, and
  then it may be empty. -/
  moduleName : String
  /-- The names that are taken from the module; `*` stands for all of them. -/
  items : List String := []
  /-- The number of dots before the name of a relative import, 0 for an absolute one. -/
  level : Nat := 0
  /-- The line of the source on which the import stands, counted from 1. -/
  line : Nat := 0
  deriving BEq, DecidableEq, Repr, Inhabited

namespace ImportLine

/-- Whether the import is relative to the importer. -/
def isRelative (l : ImportLine) : Bool := 0 < l.level

/-- **The import as it is spelled,** such as `..config` or `os.path`. -/
def spelled (l : ImportLine) : String := String.ofList (List.replicate l.level '.') ++ l.moduleName

/-- **The top level of a dotted name:** what stands before its first dot. -/
def topLevelOf (name : String) : String := String.ofList (name.toList.takeWhile (· != '.'))

/-- The top level of the module's name. -/
def topLevel (l : ImportLine) : String := topLevelOf l.moduleName

/-- A top level has no dot. -/
theorem dot_notMem_topLevel (l : ImportLine) : '.' ∉ l.topLevel.toList := by
  unfold topLevel topLevelOf
  rw [String.toList_ofList]
  intro mem
  have other := List.all_eq_true.mp (List.all_takeWhile (p := (· != '.'))) '.' mem
  exact absurd other (by decide)

/-- A relative import is spelled with a dot. -/
theorem dot_mem_spelled {l : ImportLine} (relative : l.isRelative = true) : '.' ∈ l.spelled.toList := by
  unfold spelled
  rw [String.toList_append, String.toList_ofList]
  have climbs : 0 < l.level := of_decide_eq_true relative
  exact List.mem_append_left _ (List.mem_replicate.mpr ⟨by omega, rfl⟩)

/-- **The names of the modules that an absolute import may load,** in the order in which they are tried. -/
def candidates (l : ImportLine) : List String :=
  DottedName.ancestry l.moduleName ++
    (l.items.filter (· != "*")).map (DottedName.append l.moduleName)

/-- How an import line is shown to the user. -/
def display (l : ImportLine) : String :=
  match l.items with
  | [] => s!"ImportLine({l.spelled})"
  | items => "ImportLine(" ++ l.spelled ++ " -> [" ++ ", ".intercalate items ++ "])"

end ImportLine

end PyBundle
