import PyBundle.Program.Basic

/-!
# Commands of a shell

A script is a list of commands. The words of a command are texts and values of parameters, which are put
in when the command runs.
-/

namespace PyBundle.Shell

/-- **A part of a word.** -/
inductive Piece where
  | text (s : String)
  /-- The value of a parameter. Without quotes its blanks separate words. -/
  | value (name : String) (quoted : Bool)
  /-- All arguments, each a word of its own. -/
  | arguments (quoted : Bool)
  deriving DecidableEq, Repr, Inhabited

/-- **A word before its values are put in.** -/
abbrev Word := List Piece

/-- **Where a stream goes while a command runs.** -/
inductive Redirect where
  /-- To a file, which is emptied unless the stream is appended to it. -/
  | toFile (stream : Stream) (append : Bool) (target : Word)
  /-- To where another stream goes. -/
  | toStream (stream target : Stream)
  deriving DecidableEq, Repr, Inhabited

/-- **A command.** -/
inductive Command where
  /-- A program or a built-in command with its arguments, after some assignments. -/
  | simple (line : Nat) (assignments : List (String × Word)) (words : List Word) (redirects : List Redirect)
  /-- Commands for each of some words. -/
  | forEach (name : String) (words : List Word) (body : List Command) (redirects : List Redirect)
  /-- The commands behind the first condition that holds. -/
  | choose (branches : List (List Command × List Command)) (otherwise : List Command)
    (redirects : List Redirect)
  /-- The commands behind the first pattern that a word matches. -/
  | byPattern (word : Word) (branches : List (List Word × List Command)) (redirects : List Redirect)
  /-- A second command if the first one succeeds. -/
  | andThen (first second : Command)
  /-- A second command if the first one fails. -/
  | orElse (first second : Command)
  /-- A command that succeeds if another one fails. -/
  | negated (command : Command)
  deriving Repr, Inhabited

end PyBundle.Shell
