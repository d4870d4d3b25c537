import PyBundle.Json.Printer
import PyBundle.Report.Codec
import PyBundle.Report.Summary
import PyBundle.Yaml.Printer

/-!
# Formats of reports
-/

namespace PyBundle

/-- **A format of reports.** -/
inductive ReportFormat where
  | json
  | yaml
  | summary
  deriving DecidableEq, Repr, Inhabited

/-- The format of a name. -/
def ReportFormat.ofName? (name : String) : Option ReportFormat :=
  match name with
  | "json" => some json
  | "yaml" => some yaml
  | "summary" => some summary
  | _ => none

/-- **A report in a format.** -/
def Report.render (r : Report) : ReportFormat → String
  | .json => Json.pretty r.toJson
  | .yaml => Yaml.print r.toJson
  | .summary => r.summary

/-- **A result as one line.** -/
def BuildResult.render (r : BuildResult) : String := Json.compact r.toJson

end PyBundle
