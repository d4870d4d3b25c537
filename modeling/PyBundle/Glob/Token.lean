/-!
# Glob patterns

A glob is a list of tokens. A star also matches slashes, and two stars that stand for whole directories
are tokens of their own.
-/

namespace PyBundle.Glob

/-- **A piece of a glob.** -/
inductive Token where
  /-- One character. -/
  | literal (c : Char)
  /-- Any byte, `?`. -/
  | any
  /-- Any bytes, `*`. -/
  | many
  /-- The directories before what follows, `**/` at the front. -/
  | anyStart
  /-- All below a directory, `/**` at the end. -/
  | anyEnd
  /-- The directories between two names, `/**/`. -/
  | anyMiddle
  /-- A byte of a class, or one that is not in it, `[a-z]`. -/
  | oneOf (negated : Bool) (ranges : List (Char × Char))
  /-- One of several globs, `{a,b}`. -/
  | choice (branches : List (List Token))
  deriving Repr, Inhabited

/-- **Why a text is no glob.** -/
inductive Error where
  | unclosedClass
  | invalidRange (first last : Char)
  | unopenedChoice
  | unclosedChoice
  | danglingEscape
  deriving DecidableEq, Repr, Inhabited

/-- What an error is. -/
def Error.description : Error → String
  | unclosedClass => "unclosed character class; missing ']'"
  | invalidRange first last =>
    "invalid range; '" ++ String.singleton first ++ "' > '" ++ String.singleton last ++ "'"
  | unopenedChoice =>
    "unopened alternate group; missing '\x7b' (maybe escape '\x7d' with '[\x7d]'?)"
  | unclosedChoice =>
    "unclosed alternate group; missing '\x7d' (maybe escape '\x7b' with '[\x7b]'?)"
  | danglingEscape => "dangling '\\'"

/-- The text of an error in a glob. -/
def Error.message (glob : String) (e : Error) : String :=
  "error parsing glob '" ++ glob ++ "': " ++ e.description

end PyBundle.Glob
