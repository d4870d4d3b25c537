import PyBundle.Glob.Parse
import PyBundle.Path.Basic

/-!
# Matching globs

A glob is matched against the bytes of a path. `Token.rests` lists what a token may leave of a text, and a
glob matches if its tokens in turn may leave nothing.

A text that ends with a dot has no name and no extension, so a glob that looks at the name or the
extension alone does not match it (`looksAtName`).
-/

namespace PyBundle.Glob

/-! ## Matching bytes -/

/-- The bytes of a character. -/
def bytesOf (c : Char) : List UInt8 := (String.singleton c).toUTF8.toList

/-- **Whether a byte is in a class.** Of a character of several bytes each byte counts, and a range runs
from the last byte of its first character to the first byte of its last one. -/
def inRange (r : Char × Char) (b : UInt8) : Bool :=
  let first := bytesOf r.1
  let last := bytesOf r.2
  if r.1 == r.2 then first.contains b
  else
    (first.dropLast ++ last.drop 1).contains b ||
      (first.getLast?.any (· ≤ b) && last.head?.any (b ≤ ·))

/-- A text and what is left of it after each of its bytes. -/
def tails : List UInt8 → List (List UInt8)
  | [] => [[]]
  | b :: text => (b :: text) :: tails text

/-- What is left of a text after each of its slashes. -/
def afterSlashes : List UInt8 → List (List UInt8)
  | [] => []
  | b :: text => if b == '/'.toUInt8 then text :: afterSlashes text else afterSlashes text

/-- What is left of a text behind a slash at its front. -/
def afterSlash : List UInt8 → List (List UInt8)
  | [] => []
  | b :: text => if b == '/'.toUInt8 then [text] else []

mutual
/-- Whether nothing is written in a token. Empty branches of a choice are not matched. -/
def Token.isBlank : Token → Bool
  | .choice branches => areBlank branches
  | _ => false
/-- Whether nothing is written in some branches. -/
def areBlank : List (List Token) → Bool
  | [] => true
  | branch :: branches => isBlankGlob branch && areBlank branches
/-- Whether nothing is written in a glob. -/
def isBlankGlob : List Token → Bool
  | [] => true
  | t :: ts => t.isBlank && isBlankGlob ts
end

/-- Texts without repeats. All are ends of one text, so their lengths tell them apart. -/
def distinct (texts : List (List UInt8)) : List (List UInt8) :=
  (texts.foldl (fun (kept : List (Nat × List UInt8)) text =>
    let n := text.length
    if kept.any (·.1 == n) then kept else (n, text) :: kept) []).reverse.map (·.2)

mutual
/-- **What a token may leave of a text.** -/
def Token.rests : Token → List UInt8 → List (List UInt8)
  | .literal c, text => ((bytesOf c).isPrefixOf? text).toList
  | .any, text => match text with
    | [] => []
    | _ :: text => [text]
  | .many, text => tails text
  | .anyStart, text => text :: afterSlashes text
  | .anyEnd, text => (afterSlash text).flatMap tails
  | .anyMiddle, text => (afterSlash text).flatMap fun text => text :: afterSlashes text
  | .oneOf negated ranges, text => match text with
    | [] => []
    | b :: text => if ranges.any (inRange · b) != negated then [text] else []
  | .choice branches, text =>
    if areBlank branches then [text] else restsOfBranches branches text
/-- What one of several branches may leave of a text. -/
def restsOfBranches : List (List Token) → List UInt8 → List (List UInt8)
  | [], _ => []
  | branch :: branches, text =>
    (if isBlankGlob branch then [] else restsOf branch [text]) ++ restsOfBranches branches text
/-- What a glob may leave of one of several texts. -/
def restsOf : List Token → List (List UInt8) → List (List UInt8)
  | [], texts => texts
  | t :: ts, texts => restsOf ts (distinct (texts.flatMap t.rests))
end

/-! ## Globs that look at the name -/

/-- The character of a literal token. -/
def Token.char? : Token → Option Char
  | .literal c => some c
  | _ => none

/-- Whether a token is any start. -/
def Token.isStart : Token → Bool
  | .anyStart => true
  | _ => false

/-- Whether a token is a star. -/
def Token.isMany : Token → Bool
  | .many => true
  | _ => false

/-- Whether all tokens are literals, none of them one of some characters. -/
def literalsBut (stops : List Char) (ts : List Token) : Bool :=
  ts.all fun t => t.char?.any (!stops.contains ·)

/-- A glob without any start at its front. -/
def dropStart (ts : List Token) : List Token := if ts.head?.any (·.isStart) then ts.drop 1 else ts

/-- Any directories and a name. -/
def isName (ts : List Token) : Bool :=
  ts.head?.any (·.isStart) && !(ts.drop 1).isEmpty && literalsBut ['/'] (ts.drop 1)

/-- A star, a dot and an extension without dots. -/
def isExtension (ts : List Token) : Bool :=
  match dropStart ts with
  | star :: dot :: rest => star.isMany && dot.char? == some '.' && literalsBut ['.', '/'] rest
  | _ => false

/-- A fixed end. -/
def isFixedEnd (ts : List Token) : Bool :=
  let rest := dropStart ts
  let fixed := if rest.head?.any (·.isMany) then rest.drop 1 else rest
  !fixed.isEmpty && literalsBut [] fixed

/-- Whether a glob ends with a fixed extension. -/
def endsWithExtension (ts : List Token) : Bool :=
  (ts.reverse.dropWhile fun t => t.char?.any fun c => c != '.' && c != '/').head?.any (·.char? == some '.')

/-- **Whether a glob looks at the name or at the extension of a path first.** -/
def looksAtName (ts : List Token) : Bool :=
  isName ts || isExtension ts || (!isFixedEnd ts && endsWithExtension ts)

/-- **Whether a glob matches a text.** -/
def isMatch (ts : List Token) (text : String) : Bool :=
  let bytes := text.toUTF8.toList
  if bytes.getLast? == some '.'.toUInt8 && looksAtName ts then false
  else if ts.length == 1 && ts.all (·.isStart) then true
  else (restsOf ts [bytes]).any (·.isEmpty)

/-! ## Filters -/

/-- **A filter of paths:** the globs of the paths that are left out. -/
structure Filter where
  globs : List (List Token)
  deriving Inhabited

/-- The filter of some globs, or the first glob that is none. -/
def Filter.of (patterns : List String) : Except (String × Error) Filter :=
  match patterns.mapM fun text => (parse text).mapError fun e => (text, e) with
  | .error e => .error e
  | .ok globs => .ok ⟨globs⟩

/-- **Whether a path is left out:** a glob matches the path as it is written, or the name at its end. -/
def Filter.excludes (f : Filter) (p : Path) : Bool :=
  f.globs.any (isMatch · p.text) || p.fileName?.any fun name => f.globs.any (isMatch · name)

end PyBundle.Glob
