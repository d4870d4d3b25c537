/-!
# JSON values

A JSON value keeps the order of the members of its objects. A number is an integer, or it is written with
a fraction or an exponent and kept as it is written.
-/

namespace PyBundle

/-- **A JSON value.** -/
inductive Json where
  | null
  | bool (b : Bool)
  | int (n : Int)
  | decimal (text : String)
  | string (s : String)
  | array (items : List Json)
  | object (members : List (String × Json))
  deriving Repr, Inhabited

namespace Json

/-- A natural number. -/
def nat (n : Nat) : Json := int n

/-- Strings in an array. -/
def strings (ss : List String) : Json := array (ss.map string)

/-- The member of an object. Of several members of one name the last one counts. -/
def member? (name : String) : Json → Option Json
  | object members => members.reverse.lookup name
  | _ => none

end Json

end PyBundle
