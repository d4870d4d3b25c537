import PyBundle.Bundle.Config
import PyBundle.Classify.Basic
import PyBundle.Import.Line
import PyBundle.Json.Fields
import PyBundle.Report.Basic

/-!
# The data model as JSON

Each type of the data model is written as a JSON value and read from one. Lists that are empty and a
manifest that is not there are left out where they may be missing.
-/

namespace PyBundle

/-! ## Parts -/

namespace Path

/-- A path as JSON. -/
def toJson (p : Path) : Json := .string p.text

/-- The path that a value is. -/
def ofJson? (v : Json) : Option Path := v.string?.map Path.mk

end Path

namespace LocalModule

/-- A module as JSON. -/
def toJson (m : LocalModule) : Json :=
  .object [("absolute_path", m.absolutePath.toJson), ("relative_path", m.relativePath.toJson),
    ("is_package", .bool m.isPackage), ("module_name", .string m.moduleName)]

/-- The module that a value is. -/
def ofJson? (v : Json) : Option LocalModule := do
  match ← v.fields? ["absolute_path", "relative_path", "is_package", "module_name"] with
  | [absolutePath, relativePath, isPackage, moduleName] =>
    return {
      absolutePath := ← Json.required Path.ofJson? absolutePath
      relativePath := ← Json.required Path.ofJson? relativePath
      isPackage := ← Json.required Json.bool? isPackage
      moduleName := ← Json.required Json.string? moduleName }
  | _ => none

end LocalModule

namespace ImportLine

/-- An import line as JSON. -/
def toJson (l : ImportLine) : Json :=
  .object <| ("module_name", Json.string l.moduleName) ::
    (if l.items.isEmpty then [] else [("items", Json.strings l.items)]) ++
    [("level", .nat l.level), ("line", .nat l.line)]

/-- The import line that a value is. -/
def ofJson? (v : Json) : Option ImportLine := do
  match ← v.fields? ["module_name", "items", "level", "line"] with
  | [moduleName, items, level, line] =>
    return {
      moduleName := ← Json.required Json.string? moduleName
      items := ← Json.optional (Json.list? Json.string?) [] items
      level := ← Json.optional Json.counter? 0 level
      line := ← Json.required Json.counter? line }
  | _ => none

end ImportLine

namespace Pin

/-- A pinned distribution as members of an object. -/
def members (p : Pin) : List (String × Json) := [("name", .string p.name), ("version", .string p.version)]

/-- A pinned distribution as JSON. -/
def toJson (p : Pin) : Json := .object p.members

/-- The pinned distribution that a value is. -/
def ofJson? (v : Json) : Option Pin := do
  match ← v.fields? ["name", "version"] with
  | [name, version] =>
    return {
      name := ← Json.required Json.string? name
      version := ← Json.required Json.string? version }
  | _ => none

end Pin

namespace Architecture

/-- The name of a machine. -/
def name : Architecture → String
  | x86_64 => "x86_64"
  | arm64 => "arm64"

/-- The machine of a name. -/
def ofName? (name : String) : Option Architecture :=
  if name == "x86_64" then some x86_64 else if name == "arm64" then some arm64 else none

/-- A machine as JSON. -/
def toJson (a : Architecture) : Json := .string a.name

/-- The machine that a value is: its name, or an object with its name alone. -/
def ofJson? : Json → Option Architecture
  | .string name => ofName? name
  | .object [(name, .null)] => ofName? name
  | _ => none

end Architecture

namespace Classification

/-- A classification as JSON, which says its kind first. -/
def toJson : Classification → Json
  | stdlib => .object [("kind", .string "stdlib")]
  | external pin => .object (("kind", .string "external") :: pin.members)
  | unknown => .object [("kind", .string "unknown")]

/-- The classification of a kind, where the rest of a value belongs to the kind. -/
def ofKind? (kind : String) (rest : Json) : Option Classification :=
  match kind with
  | "external" => (Pin.ofJson? rest).map external
  | "stdlib" => if rest matches .array (_ :: _) then none else some stdlib
  | "unknown" => if rest matches .array (_ :: _) then none else some unknown
  | _ => none

/-- **The classification that a value is:** an object with a kind, or an array that starts with one. -/
def ofJson? : Json → Option Classification
  | .object members => do ofKind? (← ((Json.object members).member? "kind").bind Json.string?) (.object members)
  | .array (.string kind :: rest) => ofKind? kind (.array rest)
  | _ => none

end Classification

/-! ## Reports -/

namespace BuildResult

/-- A result as JSON. -/
def toJson (r : BuildResult) : Json :=
  .object [("success", .string r.success), ("build_directory", .string r.buildDirectory)]

/-- The result that a value is. -/
def ofJson? (v : Json) : Option BuildResult := do
  match ← v.fields? ["success", "build_directory"] with
  | [success, buildDirectory] =>
    return {
      success := ← Json.required Json.string? success
      buildDirectory := ← Json.required Json.string? buildDirectory }
  | _ => none

end BuildResult

namespace Stats

/-- The numbers of a report as JSON. -/
def toJson (s : Stats) : Json :=
  .object [("import_lines", .nat s.importLines), ("local_modules", .nat s.localModules),
    ("stdlib_modules", .nat s.stdlibModules), ("external_modules", .nat s.externalModules),
    ("unknown_modules", .nat s.unknownModules), ("installed_dependencies", .nat s.installedDependencies)]

/-- The numbers that a value is. -/
def ofJson? (v : Json) : Option Stats := do
  match ← v.fields? ["import_lines", "local_modules", "stdlib_modules", "external_modules",
      "unknown_modules", "installed_dependencies"] with
  | [importLines, localModules, stdlibModules, externalModules, unknownModules, installedDependencies] =>
    return {
      importLines := ← Json.required Json.counter? importLines
      localModules := ← Json.required Json.counter? localModules
      stdlibModules := ← Json.required Json.counter? stdlibModules
      externalModules := ← Json.required Json.counter? externalModules
      unknownModules := ← Json.required Json.counter? unknownModules
      installedDependencies := ← Json.required Json.counter? installedDependencies }
  | _ => none

end Stats

namespace RunMetadata

/-- The metadata of a report as JSON. -/
def toJson (m : RunMetadata) : Json :=
  .object [("duration_ms", .nat m.durationMs), ("timestamp", .string m.timestamp),
    ("tool_version", .string m.toolVersion)]

/-- The metadata that a value is. -/
def ofJson? (v : Json) : Option RunMetadata := do
  match ← v.fields? ["duration_ms", "timestamp", "tool_version"] with
  | [durationMs, timestamp, toolVersion] =>
    return {
      durationMs := ← Json.required Json.counter? durationMs
      timestamp := ← Json.required Json.string? timestamp
      toolVersion := ← Json.required Json.string? toolVersion }
  | _ => none

end RunMetadata

namespace Report

/-- A member that is left out if it is an empty list. -/
def listMember (name : String) (items : List Json) : List (String × Json) :=
  if items.isEmpty then [] else [(name, .array items)]

/-- **A report as JSON.** -/
def toJson (r : Report) : Json :=
  .object <|
    [("entry_file", r.entryFile.toJson), ("export_dir", r.exportDirectory.toJson),
      ("search_roots", .array (r.searchRoots.map Path.toJson)),
      ("modules", .array (r.modules.map LocalModule.toJson)),
      ("stdlib_modules", .strings r.stdlibModules),
      ("external_modules", .array (r.externalModules.map Pin.toJson))] ++
    listMember "unknown_modules" (r.unknownModules.map Json.string) ++
    listMember "additional_modules" (r.additionalModules.map Path.toJson) ++
    (r.manifest.map fun p => ("manifest", p.toJson)).toList ++
    [("stats", r.stats.toJson), ("metadata", r.metadata.toJson)]

/-- The names of the fields of a report. -/
def fieldNames : List String :=
  ["entry_file", "export_dir", "search_roots", "modules", "stdlib_modules", "external_modules",
    "unknown_modules", "additional_modules", "manifest", "stats", "metadata"]

/-- **The report that a value is.** -/
def ofJson? (v : Json) : Option Report := do
  match ← v.fields? fieldNames with
  | [entryFile, exportDirectory, searchRoots, modules, stdlibModules, externalModules, unknownModules,
      additionalModules, manifest, stats, metadata] =>
    return {
      entryFile := ← Json.required Path.ofJson? entryFile
      exportDirectory := ← Json.required Path.ofJson? exportDirectory
      searchRoots := ← Json.required (Json.list? Path.ofJson?) searchRoots
      modules := ← Json.required (Json.list? LocalModule.ofJson?) modules
      stdlibModules := ← Json.required (Json.list? Json.string?) stdlibModules
      externalModules := ← Json.required (Json.list? Pin.ofJson?) externalModules
      unknownModules := ← Json.optional (Json.list? Json.string?) [] unknownModules
      additionalModules := ← Json.optional (Json.list? Path.ofJson?) [] additionalModules
      manifest := ← Json.optional (Json.nullable? Path.ofJson?) none manifest
      stats := ← Json.required Stats.ofJson? stats
      metadata := ← Json.required RunMetadata.ofJson? metadata }
  | _ => none

end Report

end PyBundle
