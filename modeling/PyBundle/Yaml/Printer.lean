import PyBundle.Yaml.Scalar

/-!
# Writing YAML

A value is written with an entry on each line. The items of a list stand below its name without
indentation, and the members of an object are indented by two spaces.
-/

namespace PyBundle.Yaml

/-- A new line, unless the last one has just been ended. -/
def endLine (cs : List Char) : List Char := if cs.getLast?.any isBreak then cs else cs ++ ['\n']

/-- How a value that has no parts is written. -/
def atom (indent : Nat) : Json → List Char
  | .string s => scalar indent s
  | v => Json.atomChars v

mutual
/-- **A value behind the name of a member,** where members are indented. -/
def memberValue (indent : Nat) : Json → List Char
  | .array (v :: vs) => '\n' :: items indent (v :: vs)
  | .object (m :: ms) => '\n' :: members (indent + 2) (m :: ms)
  | v => ' ' :: endLine (atom (indent + 2) v)
/-- The items of a list, each behind its indentation. -/
def items (indent : Nat) : List Json → List Char
  | [] => []
  | v :: vs => List.replicate indent ' ' ++ '-' :: ' ' :: itemValue indent v ++ items indent vs
/-- A value behind the dash of an item. An object starts behind the dash. -/
def itemValue (indent : Nat) : Json → List Char
  | .array (v :: vs) => (items (indent + 2) (v :: vs)).drop (indent + 2)
  | .object (m :: ms) => (members (indent + 2) (m :: ms)).drop (indent + 2)
  | v => endLine (atom (indent + 2) v)
/-- The members of an object, each behind its indentation. -/
def members (indent : Nat) : List (String × Json) → List Char
  | [] => []
  | (name, v) :: ms =>
    List.replicate indent ' ' ++ scalar indent name ++ ':' :: memberValue indent v ++ members indent ms
end

/-- **A value as a document.** -/
def print (v : Json) : String :=
  String.ofList <| match v with
    | .array (v :: vs) => items 0 (v :: vs)
    | .object (m :: ms) => members 0 (m :: ms)
    | v => endLine (atom 2 v)

end PyBundle.Yaml
