import PyBundle.Text.Line
import PyBundle.Text.Lowercase

/-!
# Names of distributions

A distribution may be spelled in many ways: case does not count, and runs of hyphens, underscores and
dots count as one hyphen.
-/

namespace PyBundle.Distribution

/-- Whether a character separates the words of a distribution's name. -/
def isSeparator (c : Char) : Bool := c == '-' || c == '_' || c == '.'

/-- A text with a hyphen for each run of separators, behind a run or not. -/
def foldSeparators (behindRun : Bool) : List Char → List Char
  | [] => []
  | c :: cs =>
    if isSeparator c then
      if behindRun then foldSeparators true cs else '-' :: foldSeparators true cs
    else c :: foldSeparators false cs

/-- **The name that all spellings of a distribution share.** -/
def normalizeName (name : String) : String :=
  Text.lower (String.ofList (foldSeparators false (Text.trim name.toList)))

end PyBundle.Distribution
