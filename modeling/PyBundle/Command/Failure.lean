import PyBundle.Bundle.Package

/-!
# How a failure is shown

A failure is shown with its causes. Each cause has a text of its own, the outermost one first.
-/

namespace PyBundle

/-! ## Causes -/

/-- The texts of a refused configuration and its causes. -/
def ConfigError.causes (e : ConfigError) : List String :=
  e.message :: match e with
    | .badGlob glob reason => [reason.message glob]
    | .fault f => [f.message]
    | _ => []

/-- The texts of a failed walk and its causes. -/
def CollectError.causes (e : CollectError) : List String :=
  e.message :: match e with
    | .unreadable _ f => [f.message]
    | .unparsable _ reason => [reason.message]
    | .tooDeep _ => []

/-- The texts of a failure to write a bundle and its causes. -/
def BundleError.causes (e : BundleError) : List String :=
  e.message :: match e with
    | .failed _ _ f => [f.message]
    | .walk reason =>
      reason.message :: match reason with
        | .unreadable _ f => [f.message]
        | .loop _ _ => []
    | .destinationExists _ => []

/-- The texts of a failed installation and its causes. -/
def InstallError.causes (e : InstallError) : List String :=
  e.message :: match e with
    | .notStarted _ f => [f.message]
    | .failed _ _ _ => []

/-- **The texts of a failure and its causes.** -/
def PackageError.causes (e : PackageError) : List String :=
  e.message :: match e with
    | .config e => e.causes
    | .collect e => e.causes
    | .bundle e => e.causes
    | .install e => e.causes

namespace Command

/-! ## Layout -/

/-- A text whose lines after the first one are indented. -/
def hang (indent : String) (text : String) : String :=
  s!"\n{indent}".intercalate (((text.toList.splitOn '\n')).map String.ofList)

/-- A cause with its number. -/
def numbered (n : Nat) (text : String) : String :=
  let number := toString n
  String.ofList (List.replicate (5 - number.length) ' ') ++ number ++ ": " ++ hang "       " text

/-- **How a failure with its causes is shown.** A single cause has no number. -/
def showCauses : List String → String
  | [] => ""
  | [top] => top
  | [top, cause] => top ++ "\n\nCaused by:\n    " ++ hang "    " cause
  | top :: causes =>
    top ++ "\n\nCaused by:\n" ++ "\n".intercalate ((causes.zipIdx).map fun (text, n) => numbered n text)

end Command

end PyBundle
