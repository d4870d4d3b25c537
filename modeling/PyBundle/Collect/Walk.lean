import PyBundle.Collect.Discovery
import PyBundle.FileSystem.Reading
import PyBundle.Module.Locate
import PyBundle.Syntax.Tree

/-!
# The walk over imports

The walk starts with an entry and follows the imports of each module as soon as the module is found. A
module is scanned once.

A chain of imports has no module twice. The path of a module that is found is shorter than
`FileSystem.pathLimit`, and where the segments of names are names of files, a root, a form and that path
tell the name. So `Sources.depthLimit` bounds every chain of such modules.
-/

namespace PyBundle

open Syntax (ParseError)

/-- **Why a walk fails.** -/
inductive CollectError where
  | unreadable (path : Path) (fault : Fault)
  | unparsable (path : Path) (reason : ParseError)
  /-- A chain of imports is longer than there are modules with names. -/
  | tooDeep (path : Path)
  deriving DecidableEq, Repr, Inhabited

/-- The text of a failed walk. -/
def CollectError.message : CollectError → String
  | unreadable path fault => s!"Failed to read {path.text}: {fault.message}"
  | unparsable path reason => s!"Failed to parse {path.text}: {reason.message}"
  | tooDeep path => s!"Too many modules import each other, the last one is {path.text}"

/-- **What a walk needs to know.** -/
structure Sources where
  files : FileSystem
  /-- The directories below which modules are found, the first one first. -/
  roots : List Path
  /-- The import lines of a source text. -/
  parse : String → Except ParseError (List ImportLine)
  /-- What a name belongs to that no local module has. -/
  classify : String → Classification

/-- A step of a walk. What was found stays when a step fails. -/
abbrev Search := ExceptT CollectError (StateM Discovery)

/-- **An import line with an absolute name,** as seen from its importer. -/
def ImportLine.absolute? (importer : LocalModule) (l : ImportLine) : Option ImportLine :=
  if l.isRelative then
    (resolveRelative importer.moduleName importer.isPackage l.level (some l.moduleName)).map fun name =>
      { l with moduleName := name }
  else some l

namespace Sources

/-- **The import lines of a module.** -/
def linesOf (s : Sources) (m : LocalModule) : Except CollectError (List ImportLine) :=
  match s.files.readText m.absolutePath with
  | .error fault => .error (.unreadable m.absolutePath fault)
  | .ok source => (s.parse source).mapError (.unparsable m.absolutePath)

/-- **The local modules that an absolute import line may load.** -/
def targets (s : Sources) (l : ImportLine) : List LocalModule :=
  l.candidates.filterMap (LocalModule.locate s.files s.roots)

/-- What is told about an import line with several targets. -/
def targetsNote (importer : LocalModule) (l : ImportLine) (targets : List LocalModule) : LogRecord :=
  let paths := ", ".intercalate (targets.map (·.relativePath.text))
  .debug (s!"{l.display} in {importer.relativePath.text} resolved to {targets.length} candidates: " ++ paths)

/-- Tells about an import line if it has several targets. -/
def tellTargets (importer : LocalModule) (l : ImportLine) (targets : List LocalModule) (d : Discovery) :
    Discovery :=
  if 1 < targets.length then d.note (targetsNote importer l targets) else d

/-- Telling changes the log alone. -/
theorem tellTargets_eq (importer : LocalModule) (l : ImportLine) (targets : List LocalModule)
    (d : Discovery) : ∃ log, tellTargets importer l targets d = { d with log } := by
  unfold tellTargets
  split
  · exact ⟨_, rfl⟩
  · exact ⟨d.log, rfl⟩

/-- What is told about a module whose imports are about to be read. -/
def scanNote (m : LocalModule) : LogRecord := .debug s!"Scanning {m.display}"

/-- Adds a module and discovers what it imports, if it is not yet found. -/
def visitTarget (discover : LocalModule → Search Unit) (target : LocalModule) : Search Unit := do
  if (← get).hasModule target then pure ()
  else
    modify (·.addModule target)
    discover target

/-- **Takes an import line of a module:** to the modules that it loads, or else under what its top level
belongs to. -/
def visitLine (s : Sources) (discover : LocalModule → Search Unit) (importer : LocalModule)
    (l : ImportLine) : Search Unit := do
  modify (·.countLine)
  match l.absolute? importer with
  | none => modify (·.refuse importer l)
  | some l =>
    match s.targets l with
    | [] => modify (·.place s.classify l.topLevel)
    | targets =>
      modify (tellTargets importer l targets)
      targets.forM (visitTarget discover)

/-- **Discovers what a module imports,** directly or through others. The fuel bounds the length of a chain
of imports. -/
def discover (s : Sources) : Nat → LocalModule → Search Unit
  | 0, m => throw (.tooDeep m.absolutePath)
  | fuel + 1, m => do
    modify (·.note (scanNote m))
    let lines ← ExceptT.mk (pure (s.linesOf m))
    lines.forM (s.visitLine (s.discover fuel) m)

/-- There are fewer texts than this that are shorter than a limit. -/
def textsBelow (limit : Nat) : Nat := Nat.pow 0x110000 limit

/-- **A bound of the chains of imports.** -/
def depthLimit (s : Sources) : Nat := 1 + s.roots.length * 2 * textsBelow FileSystem.pathLimit

/-- **Everything that a program reaches by imports,** and whether the walk came to its end. A walk that
would not end is given up at a limit of the chains of imports. -/
def collect (s : Sources) (entry : Path) (limit : Nat := s.depthLimit) :
    Except CollectError Unit × Discovery :=
  let m := LocalModule.entry entry
  let walk : Search Unit := do
    s.discover limit m
    modify fun d => d.note (.debug d.summary)
  walk.run.run (Discovery.addModule {} m)

end Sources

end PyBundle
