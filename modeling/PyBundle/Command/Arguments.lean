import PyBundle.Bundle.Config
import PyBundle.Report.Codec
import PyBundle.Report.Format

/-!
# The arguments of the command

Arguments are read one after the other. What a switch takes is set as soon as the next thing is met that
it does not take. A switch takes no values, one value, or all values up to the next switch.
-/

namespace PyBundle.Command

/-- **What the command is asked to do.** -/
structure Arguments where
  script : Option Path := none
  exportDirectory : Option Path := none
  searchPaths : List Path := []
  additionalModules : List Path := []
  extraRequirements : List String := []
  installDependencies : List String := []
  architecture : Option Architecture := none
  noManifest : Bool := false
  sitePackages : List Path := []
  python : Option String := none
  pip : Option String := none
  exclude : List String := []
  report : Option Path := none
  reportFormat : Option ReportFormat := none
  verbose : Bool := false
  deriving Inhabited

/-- **A switch of the command.** -/
inductive Switch where
  | exportDirectory
  | searchPaths
  | additionalModules
  | extraRequirements
  | installDependencies
  | architecture
  | noManifest
  | sitePackages
  | python
  | pip
  | exclude
  | report
  | reportFormat
  | verbose
  | help
  | version
  deriving DecidableEq, Repr, Inhabited

/-- How many values a switch takes. -/
inductive Arity where
  | zero
  | one
  | many
  deriving DecidableEq, Repr, Inhabited

/-- The number of values that a switch takes. -/
def Switch.arity : Switch → Arity
  | noManifest => .zero
  | verbose => .zero
  | help => .zero
  | version => .zero
  | searchPaths => .many
  | additionalModules => .many
  | extraRequirements => .many
  | installDependencies => .many
  | _ => .one

/-- The switch of a long name. -/
def Switch.ofName? (name : String) : Option Switch :=
  match name with
  | "export-dir" => some exportDirectory
  | "sys-paths" => some searchPaths
  | "additional-modules" => some additionalModules
  | "extra-requirements" => some extraRequirements
  | "install-dependencies" => some installDependencies
  | "architecture" => some architecture
  | "no-reqs" => some noManifest
  | "site-packages" => some sitePackages
  | "python" => some python
  | "pip" => some pip
  | "exclude" => some exclude
  | "report" => some report
  | "report-format" => some reportFormat
  | "verbose" => some verbose
  | "help" => some help
  | "version" => some version
  | _ => none

/-- The switch of a letter. -/
def Switch.ofLetter? : Char → Option Switch
  | 'v' => some verbose
  | 'h' => some help
  | 'V' => some version
  | _ => none

/-- **What the arguments ask for.** -/
inductive Request where
  | run (arguments : Arguments)
  | showHelp
  | showVersion
  deriving Inhabited

/-- Why reading ends before the last argument. -/
inductive Stop where
  | misuse
  | showHelp
  | showVersion
  deriving DecidableEq, Repr, Inhabited

/-! ## Values -/

/-- The path that a value is. No path is empty. -/
def path? (value : String) : Option Path := if value == "" then none else some ⟨value⟩

/-- A setting that may be set once. -/
def setOnce {α : Type} (old : Option α) (new? : Option α) : Option (Option α) :=
  if old.isSome then none else new?.map some

/-- The only value. -/
def single? : List String → Option String
  | [value] => some value
  | _ => none

/-- Sets what a switch says. There is no answer if it may not be said. -/
def Arguments.set (a : Arguments) (values : List String) : Switch → Option Arguments
  | .exportDirectory => do
    return { a with exportDirectory := ← setOnce a.exportDirectory ((single? values).bind path?) }
  | .searchPaths => do return { a with searchPaths := a.searchPaths ++ (← values.mapM path?) }
  | .additionalModules => do
    return { a with additionalModules := a.additionalModules ++ (← values.mapM path?) }
  | .extraRequirements => some { a with extraRequirements := a.extraRequirements ++ values }
  | .installDependencies => some { a with installDependencies := a.installDependencies ++ values }
  | .architecture => do
    return { a with architecture := ← setOnce a.architecture ((single? values).bind Architecture.ofName?) }
  | .sitePackages => do
    return { a with sitePackages := a.sitePackages ++ [← (single? values).bind path?] }
  | .python => do return { a with python := ← setOnce a.python (single? values) }
  | .pip => do return { a with pip := ← setOnce a.pip (single? values) }
  | .exclude => do return { a with exclude := a.exclude ++ [← single? values] }
  | .report => do return { a with report := ← setOnce a.report ((single? values).bind path?) }
  | .reportFormat => do
    return { a with reportFormat := ← setOnce a.reportFormat ((single? values).bind ReportFormat.ofName?) }
  | .noManifest => if a.noManifest then none else some { a with noManifest := true }
  | .verbose => if a.verbose then none else some { a with verbose := true }
  | _ => none

/-! ## Reading -/

/-- **What has been read so far.** -/
structure Reading where
  arguments : Arguments := {}
  /-- A switch whose values are being read, with its values. -/
  waiting : Option (Switch × List String) := none
  /-- Whether only values follow. -/
  valuesOnly : Bool := false
  deriving Inhabited

namespace Reading

/-- Sets what a switch says at once. -/
def take (r : Reading) (s : Switch) (values : List String) : Except Stop Reading :=
  match s with
  | .help => .error .showHelp
  | .version => .error .showVersion
  | s =>
    match r.arguments.set values s with
    | some arguments => .ok { r with arguments, waiting := none }
    | none => .error .misuse

/-- **Sets what the waiting switch says.** -/
def settle (r : Reading) : Except Stop Reading :=
  match r.waiting with
  | none => .ok r
  | some (s, values) => r.take s values

/-- Whether the waiting switch takes a further value. -/
def takesMore (r : Reading) : Bool :=
  match r.waiting with
  | some (s, values) => s.arity == .many || values.isEmpty
  | none => false

/-- Reads a switch by its long name, with the value that is attached to it. -/
def long (r : Reading) (name : String) (value : Option String) : Except Stop Reading :=
  match Switch.ofName? name with
  | none => .error .misuse
  | some s =>
    if s.arity == .zero then
      if value.isSome then .error .misuse else do (← r.settle).take s []
    else
      match value with
      | some value => do (← r.settle).take s [value]
      | none => do return { (← r.settle) with waiting := some (s, []) }

/-- Reads switches by their letters. -/
def letters (r : Reading) : List Char → Except Stop Reading
  | [] => .ok r
  | c :: cs =>
    match Switch.ofLetter? c with
    | none => .error .misuse
    | some s => do letters (← (← r.settle).take s []) cs

/-- Reads a value that belongs to no switch. There is one such value. -/
def positional (r : Reading) (value : String) : Except Stop Reading := do
  let r ← r.settle
  match r.arguments.script, path? value with
  | none, some script => return { r with arguments := { r.arguments with script := some script } }
  | _, _ => throw .misuse

/-- Reads a value. -/
def value (r : Reading) (value : String) : Except Stop Reading :=
  match r.waiting with
  | some (s, values) =>
    if !r.valuesOnly && r.takesMore then .ok { r with waiting := some (s, values ++ [value]) }
    else r.positional value
  | none => r.positional value

/-- **Reads an argument.** -/
def next (r : Reading) (argument : String) : Except Stop Reading :=
  if r.valuesOnly then r.value argument
  else
    match argument.toList with
    | ['-', '-'] => .ok { r with valuesOnly := true }
    | '-' :: '-' :: rest =>
      let name := String.ofList (rest.takeWhile (· != '='))
      match rest.dropWhile (· != '=') with
      | _ :: value => r.long name (some (String.ofList value))
      | [] => r.long name none
    | '-' :: c :: rest => r.letters (c :: rest)
    | _ => r.value argument

end Reading

/-- What reading all arguments comes to. -/
def readAll (arguments : List String) : Except Stop Arguments := do
  let r ← (← arguments.foldlM Reading.next {}).settle
  if r.arguments.script.isNone || r.arguments.exportDirectory.isNone then throw .misuse
  return r.arguments

/-- **What the arguments ask for.** There is no answer if they are misused. -/
def request? (arguments : List String) : Option Request :=
  match readAll arguments with
  | .ok a => some (.run a)
  | .error .showHelp => some .showHelp
  | .error .showVersion => some .showVersion
  | .error .misuse => none

/-- **The configuration that some arguments describe.** -/
def Arguments.config (a : Arguments) : Config :=
  let config : Config :=
    { entryFile := a.script.getD ⟨""⟩
      exportDirectory := a.exportDirectory.getD ⟨""⟩
      extraRequirements := a.extraRequirements
      installDependencies := a.installDependencies
      architecture := a.architecture
      generateManifest := !a.noManifest
      excludePatterns := a.exclude
      python := a.python.getD "python3"
      pip := a.pip.getD "pip" }
  ((config.withSearchPaths a.searchPaths).withAdditionalModules a.additionalModules).withSitePackages
    a.sitePackages

end PyBundle.Command
