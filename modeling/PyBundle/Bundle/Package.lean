import PyBundle.Bundle.Install
import PyBundle.Bundle.Manifest
import PyBundle.Collect.Walk
import PyBundle.Distribution.Interpreter
import PyBundle.Path.Normal
import PyBundle.Report.Basic

/-!
# Bundling a program

A configuration is checked, the installed distributions are read, and then a run goes through its stages:
it collects the modules, writes the bundle, installs the dependencies and writes the manifest. A stage
that fails ends the run, and what the stages before it have written stays.
-/

namespace PyBundle

open Syntax (ParseError)

/-- **Why a program is not bundled.** -/
inductive PackageError where
  | config (e : ConfigError)
  | collect (e : CollectError)
  | bundle (e : BundleError)
  | install (e : InstallError)
  deriving Repr, Inhabited

/-- The text of a failure. -/
def PackageError.message : PackageError → String
  | config e => s!"Config error: {e.message}"
  | collect e => s!"Collect error: {e.message}"
  | bundle e => s!"Bundle error: {e.message}"
  | install e => s!"Install error: {e.message}"

/-- **What a run answers with.** -/
structure Outcome where
  result : BuildResult
  report : Report
  deriving DecidableEq, Repr, Inhabited

/-- **A run that is about to start.** Its configuration has been checked. -/
structure Packager where
  config : Config
  /-- What a name belongs to that no local module has. -/
  classify : String → Classification

namespace Packager

/-- **The index of a configuration:** of its site directories, or else of its interpreter. An interpreter
that does not tell its directories is no reason to fail. -/
def index (host : Host) (config : Config) : Step PackageError Distribution.Index := do
  if !config.sitePackages.isEmpty then
    let (index, log) := Distribution.Index.ofRoots (← Step.files) config.sitePackages
    Step.noteAll log
    return index
  else
    let (answer, s) := (Interpreter.index host config.python).run.run (← get)
    set s
    match answer with
    | .ok index =>
      Step.note (.debug s!"Indexed {index.size} installed distributions")
      return index
    | .error e =>
      Step.note (.warning s!"{e.message}; third-party imports will be reported as unknown")
      return {}

/-- **A run with a classification** that is given. -/
def withClassification (config : Config) (classify : String → Classification) :
    Step PackageError Packager := do
  Step.demand .config (config.validate (← Step.files))
  return { config, classify }

/-- **A run with the installed distributions.** -/
def new (host : Host) (config : Config) : Step PackageError Packager := do
  Step.demand .config (config.validate (← Step.files))
  let index ← index host config
  return { config, classify := index.classify }

/-- **Collects the modules of a program.** -/
def collect (parse : String → Except ParseError (List ImportLine)) (p : Packager) (roots : List Path)
    (entry : Path) : Step PackageError Discovery := do
  let (answer, found) := Sources.collect ⟨← Step.files, roots, parse, p.classify⟩ entry
  Step.noteAll found.log
  Step.demand .collect answer
  return found

/-- Installs the dependencies of a configuration, if there are any. -/
def install (host : Host) (config : Config) (target : Path) : Step PackageError Nat :=
  if config.installDependencies.isEmpty then pure 0
  else
    match config.architecture with
    | none => throw (.config .missingArchitecture)
    | some architecture =>
      (Install.all host config.pip target architecture config.installDependencies).adapt .install

/-- The numbers of a report. -/
def statsOf (found : Discovery) (installed : Nat) : Stats where
  importLines := found.importLines
  localModules := found.modules.length
  stdlibModules := found.stdlib.length
  externalModules := found.external.length
  unknownModules := found.unknown.length
  installedDependencies := installed

/-- **Bundles a program.** The source texts are read by a parser, and the metadata go into the report. -/
def package (host : Host) (parse : String → Except ParseError (List ImportLine)) (metadata : RunMetadata)
    (p : Packager) : Step PackageError Outcome := do
  let config := p.config
  let fs ← Step.files
  let entryFile ← Step.demand .config (Config.absolute fs config.entryFile)
  let exportDirectory ← Step.demand .config (Config.absolute fs config.exportDirectory)
  let searchRoots ← Step.demand .config (config.searchRoots fs)
  let found ← p.collect parse searchRoots entryFile
  let filter ← Step.demand .config config.filter
  let bundle : Bundle := ⟨exportDirectory, filter.excludes⟩
  let additionalModules ← (bundle.emit found.modules config.additionalModules).adapt .bundle
  let installed ← install host config exportDirectory
  let externalModules := found.sortedExternal
  let manifest ←
    if config.generateManifest then
      some <$> (Manifest.write bundle externalModules config.extraRequirements).adapt .bundle
    else pure none
  return {
    result := .succeeded config.exportDirectory.normalize.text
    report := {
      entryFile, exportDirectory, searchRoots, externalModules, additionalModules, manifest, metadata
      modules := found.modules
      stdlibModules := found.stdlib
      unknownModules := found.unknown
      stats := statsOf found installed } }

end Packager

end PyBundle
