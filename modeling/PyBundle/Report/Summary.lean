import PyBundle.Report.Basic

/-!
# The summary of a report

A report as a text for people. Parts that would be empty are left out.
-/

namespace PyBundle.Report

/-- A heading with lines below it and a blank line behind them. -/
def block (heading : String) (lines : List String) : List String :=
  heading :: lines.map ("  " ++ ·) ++ [""]

/-- A block, unless it is empty. -/
def blockIfAny (heading : String) (lines : List String) : List String :=
  if lines.isEmpty then [] else block heading lines

/-- How a module is listed. The entry has no name. -/
def moduleLine (m : LocalModule) : String :=
  let name := if m.moduleName == "" then "<entry>" else m.moduleName
  s!"{name} ({m.relativePath.text})"

/-- The lines that count the imports. -/
def countLines (s : Stats) : List String :=
  [s!"Import Statements: {s.importLines}", s!"- Local modules: {s.localModules}",
    s!"- Stdlib: {s.stdlibModules}", s!"- External: {s.externalModules}",
    s!"- Unknown: {s.unknownModules}", ""]

/-- The lines that say when a report was made. -/
def metadataLines (m : RunMetadata) : List String :=
  [s!"Duration: {m.durationMs}ms", s!"Timestamp: {m.timestamp}", s!"Tool Version: {m.toolVersion}"]

/-- The lines of a summary. -/
def summaryLines (r : Report) : List String :=
  ["Package Summary", "===============", s!"Entry: {r.entryFile.text}", s!"Bundle: {r.exportDirectory.text}", ""] ++
    block "Search Roots:" (r.searchRoots.map (·.text)) ++
    countLines r.stats ++
    block "Bundled Modules:" (r.modules.map moduleLine) ++
    blockIfAny "External Dependencies:" (r.externalModules.map Pin.requirement) ++
    blockIfAny "Unresolved Imports:" r.unknownModules ++
    blockIfAny "Additional Modules:" (r.additionalModules.map (·.text)) ++
    (r.manifest.map fun p => s!"Manifest: {p.text}").toList ++
    (if r.stats.installedDependencies == 0 then []
      else [s!"Installed Dependencies: {r.stats.installedDependencies}"]) ++
    metadataLines r.metadata

/-- **The summary of a report.** -/
def summary (r : Report) : String := String.join (r.summaryLines.map (· ++ "\n"))

end PyBundle.Report
