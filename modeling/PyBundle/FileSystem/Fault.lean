/-!
# Faults

Why an operation on the file system fails, and what is said about it.
-/

namespace PyBundle

/-- **Why an operation on the file system fails.** -/
inductive Fault where
  | noSuchEntry
  | alreadyExists
  | notDirectory
  | isDirectory
  | notEmpty
  | tooManyLinks
  | nameTooLong
  | permissionDenied
  | notExecutable
  | invalidArgument
  /-- A file that is read as text is not UTF-8. -/
  | invalidText
  /-- A file is copied that is none. -/
  | notFile
  /-- A path holds a NUL. -/
  | nulInPath
  /-- The name or an argument of a program holds a NUL. -/
  | nulInArgument
  /-- An empty path has no absolute form. -/
  | emptyPath
  /-- A path has no parent that could be made. -/
  | noParent
  deriving DecidableEq, Repr, Inhabited

namespace Fault

/-- The number of a fault that the operating system reports. -/
def number? : Fault → Option Nat
  | noSuchEntry => some 2
  | notExecutable => some 8
  | permissionDenied => some 13
  | alreadyExists => some 17
  | notDirectory => some 20
  | isDirectory => some 21
  | invalidArgument => some 22
  | nameTooLong => some 36
  | notEmpty => some 39
  | tooManyLinks => some 40
  | _ => none

/-- What a fault is. -/
def description : Fault → String
  | noSuchEntry => "No such file or directory"
  | alreadyExists => "File exists"
  | notDirectory => "Not a directory"
  | isDirectory => "Is a directory"
  | notEmpty => "Directory not empty"
  | tooManyLinks => "Too many levels of symbolic links"
  | nameTooLong => "File name too long"
  | permissionDenied => "Permission denied"
  | notExecutable => "Exec format error"
  | invalidArgument => "Invalid argument"
  | invalidText => "stream did not contain valid UTF-8"
  | notFile => "the source path is neither a regular file nor a symlink to a regular file"
  | nulInPath => "file name contained an unexpected NUL byte"
  | nulInArgument => "nul byte found in provided data"
  | emptyPath => "cannot make an empty path absolute"
  | noParent => "failed to create whole tree"

/-- **The text of a fault.** One of the operating system names its number. -/
def message (f : Fault) : String :=
  match f.number? with
  | some n => s!"{f.description} (os error {n})"
  | none => f.description

end Fault

end PyBundle
