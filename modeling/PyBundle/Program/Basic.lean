import PyBundle.FileSystem.Writing
import PyBundle.Text.Line
import PyBundle.Text.Utf8

/-!
# Programs that are started

A program is called by its name with arguments. It may change the file system, it writes to two streams,
and it ends with a code unless it is stopped. What programs do is up to the host.
-/

namespace PyBundle

/-- **A stream that a program writes to.** -/
inductive Stream where
  | output
  | diagnostics
  deriving DecidableEq, Repr, Inhabited

/-- **Something that a program writes.** -/
structure Chunk where
  stream : Stream
  bytes : ByteArray
  deriving Inhabited

/-- **How a program is called.** -/
structure Call where
  program : String
  arguments : List String
  deriving DecidableEq, Repr, Inhabited

/-- **How a program came to its end.** One that is stopped from outside has no code. -/
structure Finished where
  code : Option Nat
  written : List Chunk
  deriving Inhabited

namespace Finished

/-- Whether a program did what it was called for. -/
def succeeded (f : Finished) : Bool := f.code == some 0

/-- The code that is told of a program. -/
def shownCode (f : Finished) : Nat := f.code.getD 1

/-- What is written to both streams, as it came. -/
def everything (f : Finished) : ByteArray := f.written.foldl (fun bytes c => bytes ++ c.bytes) ByteArray.empty

/-- What is written to a stream. -/
def onStream (f : Finished) (s : Stream) : ByteArray :=
  (f.written.filter (·.stream == s)).foldl (fun bytes c => bytes ++ c.bytes) ByteArray.empty

/-- Bytes as a text. -/
def asText (bytes : ByteArray) : String := Text.Utf8.decodeLossy bytes

/-- **Bytes as they are shown:** a text without blanks at its ends. -/
def shownText (bytes : ByteArray) : String := String.ofList (Text.trim (asText bytes).toList)

end Finished

/-- **What programs do.** -/
structure Host where
  /-- The directories in which a program is looked for that is called by a bare name. -/
  searchPath : List Path
  /-- What a call does to a file system, and how the program ends or why it cannot be started. -/
  run : FileSystem → Call → FileSystem × Except Fault Finished

end PyBundle
