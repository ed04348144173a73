import ApiBindings.Json.Fields
import ApiBindings.Toml.Value

/-!
# Settings documents

What a settings file says, whichever format it is written in.  The formats differ in a few freedoms,
which a dialect names.
-/

namespace ApiBindings.Settings

/-- A part of a settings document. Values that no setting can have are not told apart. -/
inductive Document where
  | null
  | text (text : String)
  | natural (value : Nat)
  | list (items : List Document)
  | table (members : List (String × Document))
  | other
  deriving Repr

/-- What a format allows. -/
structure Dialect where
  /-- Whether a list may have more items than the record it stands for has fields. -/
  sparesItems : Bool
  /-- Whether a value says nothing beyond being there. -/
  isVoid : Document → Bool

namespace Document

mutual

/-- A JSON value as a settings document. -/
def ofJson : Json → Document
  | .null => .null
  | .string spelling =>
      match Json.unspell? spelling with
      | some characters => .text (String.ofList characters)
      | none => .other
  | .number spelling =>
      match (Json.number spelling).natural? with
      | some value => .natural value
      | none => .other
  | .array items => .list (itemsOfJson items)
  | .object members =>
      match membersOfJson? members with
      | some members => .table members
      | none => .other
  | .bool _ => .other

/-- JSON values as settings documents. -/
def itemsOfJson : List Json → List Document
  | [] => []
  | item :: rest => ofJson item :: itemsOfJson rest

/-- The members of a JSON object as settings documents, if their keys are texts. -/
def membersOfJson? : List (List Char × Json) → Option (List (String × Document))
  | [] => some []
  | (key, value) :: rest => do
      return (String.ofList (← Json.unspell? key), ofJson value) :: (← membersOfJson? rest)

end

mutual

/-- A TOML value as a settings document. -/
def ofToml : Toml.Value → Document
  | .string written => .text written
  | .integer value => if 0 ≤ value then .natural value.toNat else .other
  | .array items => .list (itemsOfToml items)
  | .table entries => .table (entriesOfToml entries)
  | .boolean _ | .float _ | .moment _ => .other

/-- TOML values as settings documents. -/
def itemsOfToml : List Toml.Value → List Document
  | [] => []
  | item :: rest => ofToml item :: itemsOfToml rest

/-- The entries of a TOML table as settings documents. -/
def entriesOfToml : List (String × Toml.Value) → List (String × Document)
  | [] => []
  | (key, value) :: rest => (key, ofToml value) :: entriesOfToml rest

end

/-- What the members of a table say about fields. There may be no other members, and no field may
come twice. -/
def tableFields? (names : List String) (members : List (String × Document)) :
    Option (List (Option Document)) :=
  let keys := members.map (·.1)
  if keys.all names.contains && names.all fun name => keys.count name ≤ 1 then
    some (names.map fun name => members.lookup name)
  else none

/-- What the items of a list say about fields, in their order. -/
def listFields? (dialect : Dialect) (names : List String) (items : List Document) :
    Option (List (Option Document)) :=
  if items.length ≤ names.length || dialect.sparesItems then
    some ((items.take names.length).map some ++
      List.replicate (names.length - items.length) none)
  else none

/-- What a record says about its fields, in the order of their names. -/
def fields? (dialect : Dialect) (names : List String) :
    Document → Option (List (Option Document))
  | .table members => tableFields? names members
  | .list items => listFields? dialect names items
  | _ => none

/-- A text. -/
def text? : Document → Option String
  | .text written => some written
  | _ => none

/-- A number below a limit. -/
def naturalOfBits? (bits : Nat) : Document → Option Nat
  | .natural value => if value < Nat.pow 2 bits then some value else none
  | _ => none

/-- One of several named values. A name may also be the only key of a table with a void value. -/
def choice? {α : Type} (dialect : Dialect) (values : List (String × α)) : Document → Option α
  | .text name => values.lookup name
  | .table [(name, value)] => if dialect.isVoid value then values.lookup name else none
  | _ => none

/-- A field that may be missing. -/
def optional? {α : Type} (value? : Document → Option α) : Option Document → Option (Option α)
  | none | some .null => some none
  | some value => (value? value).map some

/-- A field that has a default where it is missing. -/
def withDefault? {α : Type} (default : α) (value? : Document → Option α) :
    Option Document → Option α
  | none => some default
  | some value => value? value

end Document

namespace Dialect

/-- JSON is strict about lists, and only `null` is void. -/
def json : Dialect where
  sparesItems := false
  isVoid
    | .null => true
    | _ => false

/-- TOML has no `null`; tables and lists without anything in them are void. -/
def toml : Dialect where
  sparesItems := true
  isVoid
    | .table [] | .list [] => true
    | _ => false

end Dialect

end ApiBindings.Settings
