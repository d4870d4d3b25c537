import PyBundle.Module.Local
import PyBundle.Program.Session

/-!
# Writing a bundle

The directory of the bundle is emptied, the modules are copied to their relative paths, and then each
additional directory is copied to its name. A copy goes through a directory as it is when its turn comes,
and it follows links.
-/

namespace PyBundle

/-- **What is done to a path.** -/
inductive Action where
  | remove
  | create
  | copy
  | resolve
  | write
  deriving DecidableEq, Repr, Inhabited

/-- The word for what is done. -/
def Action.word : Action → String
  | remove => "remove"
  | create => "create"
  | copy => "copy"
  | resolve => "resolve"
  | write => "write"

/-- **Why a directory cannot be gone through.** -/
inductive WalkFault where
  | unreadable (path : Path) (fault : Fault)
  /-- A link leads to a directory around it. -/
  | loop (link ancestor : Path)
  deriving DecidableEq, Repr, Inhabited

/-- The text of a fault on the way through a directory. -/
def WalkFault.message : WalkFault → String
  | unreadable path fault => s!"IO error for operation on {path.text}: {fault.message}"
  | loop link ancestor => s!"File system loop found: {link.text} points to an ancestor {ancestor.text}"

/-- **Why a bundle is not written.** -/
inductive BundleError where
  | failed (action : Action) (path : Path) (fault : Fault)
  | destinationExists (path : Path)
  | walk (reason : WalkFault)
  deriving DecidableEq, Repr, Inhabited

/-- The text of a failure. -/
def BundleError.message : BundleError → String
  | failed action path fault => s!"Failed to {action.word} {path.text}: {fault.message}"
  | destinationExists path => s!"Destination already exists in bundle: {path.text}"
  | walk reason => s!"Failed to walk directory: {reason.message}"

/-- **Where a bundle is written.** -/
structure Bundle where
  directory : Path
  /-- Whether an entry of a copied directory is left out, by its path in that directory. -/
  excludes : Path → Bool

namespace Bundle

/-! ## Steps -/

/-- Makes a directory and the parents that are missing. -/
def create (p : Path) : Step BundleError Unit := Step.change (.failed .create p) (·.makeDirectories p)

/-- Makes the directory that a path is in, if it is in one. -/
def createParent (p : Path) : Step BundleError Unit :=
  match p.parent? with
  | some parent => create parent
  | none => pure ()

/-- Copies a file. -/
def copyFile (source target : Path) : Step BundleError Unit :=
  Step.change (.failed .copy source) fun fs => fs.settle (fs.copy source target)

/-- What is told when something is copied. -/
def copiedNote (source target : Path) : LogRecord := .debug s!"Copied {source.text} -> {target.text}"

/-- **Makes the directory of the bundle anew.** What was there goes. -/
def reset (b : Bundle) : Step BundleError Unit := do
  let fs ← Step.files
  if fs.isDirectory b.directory then
    Step.change (.failed .remove b.directory) (·.removeTree b.directory)
  else if fs.pathExists b.directory then
    Step.change (.failed .remove b.directory) fun fs => fs.settle (fs.removeFile b.directory)
  create b.directory

/-- **Copies a module** to its relative path. -/
def copyModule (b : Bundle) (m : LocalModule) : Step BundleError Unit := do
  let target := b.directory.join m.relativePath
  createParent target
  copyFile m.absolutePath target
  Step.note (copiedNote m.absolutePath target)

/-! ## Directories -/

/-- **Whether an entry leads to a directory.** A link has to lead to something, and not to one of the
directories around it. -/
def leadsToDirectory (fs : FileSystem) (ancestors : List Path) (p : Path) (n : Node) :
    Except WalkFault Bool :=
  if !n.isLink then .ok n.isDirectory
  else
    match fs.place p with
    | .error f => .error (.unreadable p f)
    | .ok place =>
      if !fs.isDirectory p then .ok false
      else
        match ancestors.find? fun a => (fs.place a).toOption == some place with
        | some a => .error (.loop p a)
        | none => .ok true

/-- **Copies an entry and all below it,** except what is left out. The directories around it come the
nearest first. The fuel bounds the depth, which the length of paths limits. -/
def copyEntry (b : Bundle) (destination : Path) : Nat → List Path → Path → Path → Node → Step BundleError Unit
  | 0, _, source, _, _ => throw (.walk (.unreadable source .nameTooLong))
  | fuel + 1, ancestors, source, relative, n => do
    let isDirectory ← Step.demand .walk (leadsToDirectory (← Step.files) ancestors source n)
    if !relative.isEmpty && b.excludes relative then pure ()
    else
      let target := destination.join relative
      if isDirectory then
        create target
        let entries ← Step.demand (fun f => .walk (.unreadable source f)) ((← Step.files).list source)
        (Node.namesOf entries).forM fun name =>
          match entries.lookup name with
          | some n =>
            copyEntry b destination fuel (source :: ancestors) (source.push name) (relative.push name) n
          | none => pure ()
      else
        createParent target
        copyFile source target

/-- **Copies a directory** to a path at which nothing is. -/
def copyTree (b : Bundle) (source destination : Path) : Step BundleError Unit := do
  let fs ← Step.files
  if fs.pathExists destination then throw (.destinationExists destination)
  let (_, n) ← Step.demand (fun f => .walk (.unreadable source f)) (fs.nodeItself source)
  copyEntry b destination FileSystem.pathLimit [] source ⟨""⟩ n
  Step.note (copiedNote source destination)

/-- **Copies an additional directory** to its name, and answers with its absolute path. Anything that is
no directory, or that has no name, is left out. -/
def copyAdditional (b : Bundle) (p : Path) : Step BundleError (Option Path) := do
  let fs ← Step.files
  if !fs.isDirectory p then
    Step.note (.warning s!"Skipping additional module {p.text}: not a directory")
    return none
  let source ← Step.demand (.failed .resolve p) (fs.absolute p)
  match source.fileName? with
  | none =>
    Step.note (.warning s!"Skipping additional module {p.text}: no directory name")
    return none
  | some name =>
    copyTree b source (b.directory.push name)
    return some source

/-- **Writes a bundle of modules and additional directories,** and answers with the directories that were
copied. -/
def emit (b : Bundle) (modules : List LocalModule) (additional : List Path) :
    Step BundleError (List Path) := do
  b.reset
  modules.forM b.copyModule
  additional.filterMapM b.copyAdditional

end Bundle

end PyBundle
