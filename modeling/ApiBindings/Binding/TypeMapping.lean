import ApiBindings.Identifier
import ApiBindings.Path
import ApiBindings.Source.Graph
import ApiBindings.Target.TypeExpr

/-!
# Types of the source as TypeScript types

Wrappers are mapped in the order they are declared in: a collection of nullable numbers becomes
`(number | null)[]`, a nullable collection of numbers `number[] | null`.  A type without a
counterpart is one of the faults that a model may have.
-/

namespace ApiBindings

/-! ## Faults of a model -/

/-- A fault of one model. The other models of its graph are not affected. -/
inductive BindError where
  | naming (error : NameError)
  /-- A type that refers to nothing that can be imported. -/
  | invalidReference (name : String)
  /-- A type that has no counterpart, described. -/
  | unsupportedKind (kind : String)
  /-- A file that an earlier model is generated to. -/
  | outputTaken (path : Path) (owner : String)
  deriving Repr, DecidableEq

/-- The text shown for a fault. -/
def BindError.message : BindError → String
  | .naming error => error.message
  | .invalidReference name => "invalid referenced type name '" ++ name ++ "'"
  | .unsupportedKind kind => "unsupported type kind '" ++ kind ++ "'"
  | .outputTaken path owner =>
      "output file " ++ path.text ++ " is already generated for '" ++ owner ++ "'"

end ApiBindings

namespace ApiBindings.Binding

/-! ## Mapping types -/

/-- What dates become. -/
inductive DateMapping where
  /-- The built-in type `Date`. -/
  | date
  /-- A text, as it is sent over the wire. -/
  | string
  deriving Repr, DecidableEq

/-- What a built-in type of the source becomes. -/
inductive PrimitiveMapping where
  | fixed (type : Target.Primitive)
  | date
  deriving Repr, DecidableEq

/-- The built-in types of the source, by their keywords and by their library names. -/
def primitiveTable : List (String × PrimitiveMapping) := [
  ("byte", .fixed .number), ("Byte", .fixed .number),
  ("sbyte", .fixed .number), ("SByte", .fixed .number),
  ("short", .fixed .number), ("Int16", .fixed .number),
  ("ushort", .fixed .number), ("UInt16", .fixed .number),
  ("int", .fixed .number), ("Int32", .fixed .number),
  ("uint", .fixed .number), ("UInt32", .fixed .number),
  ("long", .fixed .number), ("Int64", .fixed .number),
  ("ulong", .fixed .number), ("UInt64", .fixed .number),
  ("float", .fixed .number), ("Single", .fixed .number),
  ("double", .fixed .number), ("Double", .fixed .number),
  ("decimal", .fixed .number), ("Decimal", .fixed .number),
  ("bool", .fixed .boolean), ("Boolean", .fixed .boolean),
  ("string", .fixed .string), ("String", .fixed .string),
  ("char", .fixed .string), ("Char", .fixed .string),
  ("Guid", .fixed .string), ("TimeSpan", .fixed .string),
  ("void", .fixed .void), ("Void", .fixed .void),
  ("DateTime", .date), ("DateTimeOffset", .date), ("DateOnly", .date)]

/-- A name without the namespace that built-in types may be given with. -/
def withoutNamespace (name : String) : String :=
  let space := "System.".toList
  if space.isPrefixOf name.toList then String.ofList (name.toList.drop space.length) else name

/-- What the table says about a built-in type. -/
def primitive? (name : String) : Option PrimitiveMapping :=
  primitiveTable.lookup (withoutNamespace name)

/-- What a mapping becomes under a choice for dates. -/
def PrimitiveMapping.target (dates : DateMapping) : PrimitiveMapping → Target.TypeExpr
  | .fixed type => .primitive type
  | .date =>
      match dates with
      | .date => .reference "Date"
      | .string => .primitive .string

/-- A mapped type, and the types it refers to in the order of their names in it. -/
structure Mapped (α : Type) where
  type : α
  references : List Source.TypeReference
  deriving Repr

mutual

/-- The TypeScript type for a type of the source. The first part without a counterpart makes it
fail. -/
def mapType (dates : DateMapping) :
    Source.TypeExpr → Except BindError (Mapped Target.TypeExpr)
  | .primitive name =>
      match primitive? name with
      | some mapping => .ok ⟨mapping.target dates, []⟩
      | none => .error (.unsupportedKind ("primitive " ++ name))
  | .nullable inner => do
      let inner ← mapType dates inner
      return ⟨inner.type.orNull, inner.references⟩
  | .collection element => do
      let element ← mapType dates element
      return ⟨.array element.type, element.references⟩
  | .dictionary key value => do
      let key ← mapType dates key
      let value ← mapType dates value
      return ⟨.record key.type value.type, key.references ++ value.references⟩
  | .reference name kind [] => return ⟨.reference name, [⟨name, kind⟩]⟩
  | .reference name kind (argument :: rest) => do
      let argument ← mapType dates argument
      let rest ← mapTypes dates rest
      return ⟨.generic name (argument.type :: rest.type),
        ⟨name, kind⟩ :: (argument.references ++ rest.references)⟩
  | .typeParameter name => return ⟨.reference name, []⟩
  | .unknown => .error (.unsupportedKind Source.TypeExpr.unknown.display)

/-- The TypeScript types for several types. -/
def mapTypes (dates : DateMapping) :
    List Source.TypeExpr → Except BindError (Mapped (List Target.TypeExpr))
  | [] => return ⟨[], []⟩
  | type :: rest => do
      let type ← mapType dates type
      let rest ← mapTypes dates rest
      return ⟨type.type :: rest.type, type.references ++ rest.references⟩

end

end ApiBindings.Binding
