import PyBundle.Json.Value

/-!
# Reading fields

A record is an object, in which members that are not asked for do not count, or an array of its fields in
order, from which fields may be missing at the end.
-/

namespace PyBundle.Json

/-- **The fields of a record** by their names in order. A field may be missing. -/
def fields? (names : List String) : Json → Option (List (Option Json))
  | object members => some (names.map fun name => (object members).member? name)
  | array items =>
    if names.length < items.length then none
    else some ((List.range names.length).map fun i => items[i]?)
  | _ => none

/-- The text that a value is. -/
def string? : Json → Option String
  | string s => some s
  | _ => none

/-- The truth value that a value is. -/
def bool? : Json → Option Bool
  | bool b => some b
  | _ => none

/-- **The counter that a value is:** a natural number of 64 bits. -/
def counter? : Json → Option Nat
  | int n => if 0 ≤ n && n < 0x10000000000000000 then some n.toNat else none
  | _ => none

/-- The list that a value is. -/
def list? {α : Type} (item? : Json → Option α) : Json → Option (List α)
  | array items => items.mapM item?
  | _ => none

/-- What a value is that may be null. -/
def nullable? {α : Type} (item? : Json → Option α) : Json → Option (Option α)
  | null => some none
  | v => (item? v).map some

/-- A field that has to be there. -/
def required {α : Type} (item? : Json → Option α) (field : Option Json) : Option α := field.bind item?

/-- A field that has a value if it is missing. -/
def optional {α : Type} (item? : Json → Option α) (default : α) : Option Json → Option α
  | some v => item? v
  | none => some default

end PyBundle.Json
