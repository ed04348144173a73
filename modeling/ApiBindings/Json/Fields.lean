import ApiBindings.Json.Basic

/-!
# Records in JSON

A record with known fields is written as an object, in any order, or as an array of its fields in
their order.  Objects may have members that are no fields of the record; a field may not come
twice.  Every container that is read takes one level of a limit on nesting.
-/

namespace ApiBindings.Json

/-- The members of an object with the texts of their keys. -/
def namedMembers? (members : List (List Char × Json)) : Option (List (String × Json)) :=
  members.mapM fun (key, value) => do
    return (String.ofList (← unspell? key), value)

/-- The value of a field, if it is there; nothing if it comes more than once. -/
def uniqueField? (members : List (String × Json)) (name : String) : Option (Option Json) :=
  match members.filter (·.1 == name) with
  | [] => some none
  | [(_, value)] => some (some value)
  | _ => none

/-- The fields of an object. -/
def objectFields? (names : List String) (members : List (String × Json)) :
    Option (List (Option Json)) :=
  names.mapM (uniqueField? members)

/-- The fields of an array: it holds a first part of them. -/
def arrayFields? (names : List String) (items : List Json) : Option (List (Option Json)) :=
  if items.length ≤ names.length then
    some (items.map some ++ List.replicate (names.length - items.length) none)
  else none

/-- The fields of a record, in the order of their names. -/
def fields? (names : List String) : Json → Option (List (Option Json))
  | .object members => do objectFields? names (← namedMembers? members)
  | .array items => arrayFields? names items
  | _ => none

/-- The fields of a record that may lie `levels` deep, and the levels left inside of it. -/
def record? (levels : Nat) (names : List String) (value : Json) :
    Option (Nat × List (Option Json)) :=
  match levels with
  | 0 => none
  | inside + 1 => (value.fields? names).map (inside, ·)

/-- The items of a list whose field may be missing. -/
def list? {α : Type} (levels : Nat) (item? : Nat → Json → Option α) :
    Option Json → Option (List α)
  | none => some []
  | some (.array items) =>
      match levels with
      | 0 => none
      | inside + 1 => items.mapM (item? inside)
  | some _ => none

/-- A field that may be missing or `null`. -/
def optional? {α : Type} (value? : Json → Option α) : Option Json → Option (Option α)
  | none | some .null => some none
  | some value => (value? value).map some

/-- One of a few names. A name may also be given as the only key of an object whose value is
nothing, which takes one level. -/
def choice? (levels : Nat) (isNothing : Json → Bool) : Json → Option String
  | .object [(key, value)] =>
      if 0 < levels && isNothing value then (unspell? key).map String.ofList else none
  | value => value.text?

/-- Whether a value is `null`. -/
def isNull : Json → Bool
  | .null => true
  | _ => false

/-- Whether a value is `null` or an object without members. -/
def isVoid : Json → Bool
  | .null | .object [] => true
  | _ => false

/-- An object with given members. -/
def ofMembers (members : List (String × Json)) : Json :=
  .object (members.map fun (key, value) => (spell key.toList, value))

/-- A text that may be missing, written as `null` then. -/
def ofText? : Option String → Json
  | none => .null
  | some text => ofText text

end ApiBindings.Json
