import ApiBindings.Files
import ApiBindings.Json.Fields
import ApiBindings.Json.Printer
import ApiBindings.Json.Reader
import ApiBindings.Source.Graph

/-!
# Model graphs as JSON

The document format of a graph, written and read.  Field names are in camel case, a type says what
it is in its field `kind`, and a kind that is not known is read as the unknown type.  Reading a
document that was written gives the graph back, as long as its types do not nest too deep.
-/

namespace ApiBindings.Source

open Json

/-- How deep the containers of a document may nest. -/
def maxLevels : Nat := 127

/-- The name of a dependency kind. -/
def DependencyKind.text : DependencyKind → String
  | .model => "model"
  | .enum => "enum"

/-- The dependency kind with a given name. -/
def DependencyKind.ofText? (name : String) : Option DependencyKind :=
  if name == "model" then some .model
  else if name == "enum" then some .enum
  else none

namespace TypeExpr

/-! ## Types -/

/-- The kinds of types. -/
inductive Kind where
  | primitive
  | nullable
  | collection
  | dictionary
  | reference
  | typeParameter
  | unknown
  deriving Repr, DecidableEq

/-- The kind with a given name. -/
def Kind.ofText (name : String) : Kind :=
  if name == "primitive" then .primitive
  else if name == "nullable" then .nullable
  else if name == "collection" then .collection
  else if name == "dictionary" then .dictionary
  else if name == "reference" then .reference
  else if name == "typeParameter" then .typeParameter
  else .unknown

/-- The kind with a given number. -/
def Kind.ofNumber : Nat → Kind
  | 0 => .primitive
  | 1 => .nullable
  | 2 => .collection
  | 3 => .dictionary
  | 4 => .reference
  | 5 => .typeParameter
  | _ => .unknown

/-- The kind of a type is a name. Inside of another type it may also be a number below 2⁶⁴. -/
def Kind.ofJson? (nested : Bool) (value : Json) : Option Kind :=
  match value.text?, value.natural? with
  | some name, _ => some (.ofText name)
  | none, some index => if nested && index < Nat.pow 2 64 then some (.ofNumber index) else none
  | none, none => none

/-- The kind of a type and the value that holds its fields: the object itself, or the items of an
array after the kind. -/
def tagged? (nested : Bool) : Json → Option (Kind × Json)
  | .object members => do
      let tag ← uniqueField? (← namedMembers? members) "kind"
      return (← Kind.ofJson? nested (← tag), .object members)
  | .array (tag :: items) => return (← Kind.ofJson? nested tag, .array items)
  | _ => none

/-- A dependency kind inside of a type. -/
def dependencyKind? (value : Json) : Option DependencyKind := do
  DependencyKind.ofText? (← choice? 1 isVoid value)

/-- A type that lies `levels` deep at most. -/
def ofReadable? (levels : Nat) (nested : Bool) (value : Json) : Option TypeExpr :=
  match levels with
  | 0 => none
  | inside + 1 => do
    let (kind, content) ← tagged? nested value
    match kind with
    | .primitive =>
        match ← content.fields? ["name"] with
        | [some name] => return .primitive (← name.text?)
        | _ => none
    | .nullable =>
        match ← content.fields? ["inner"] with
        | [some inner] => return .nullable (← ofReadable? inside true inner)
        | _ => none
    | .collection =>
        match ← content.fields? ["element"] with
        | [some element] => return .collection (← ofReadable? inside true element)
        | _ => none
    | .dictionary =>
        match ← content.fields? ["key", "value"] with
        | [some key, some value] =>
            return .dictionary (← ofReadable? inside true key) (← ofReadable? inside true value)
        | _ => none
    | .reference =>
        match ← content.fields? ["name", "dependencyKind", "arguments"] with
        | [some name, some dependency, arguments] =>
            let name ← name.text?
            let dependency ← dependencyKind? dependency
            match arguments with
            | none => return .reference name dependency []
            | some (.array items) =>
                return .reference name dependency
                  (← items.mapM fun item => ofReadable? inside true item)
            | some _ => none
        | _ => none
    | .typeParameter =>
        match ← content.fields? ["name"] with
        | [some name] => return .typeParameter (← name.text?)
        | _ => none
    | .unknown =>
        match ← content.fields? [] with
        | [] => return .unknown
        | _ => none

/-- The type a document describes. All of the description has to be readable, also the fields that
its kind does not have. -/
def ofJson? (levels : Nat) (value : Json) : Option TypeExpr :=
  if value.height ≤ levels && value.isReadable then ofReadable? levels false value else none

mutual

/-- The description of a type. The arguments of a reference are left out if there are none. -/
def toJson : TypeExpr → Json
  | .primitive name => ofMembers [("kind", ofText "primitive"), ("name", ofText name)]
  | .nullable inner => ofMembers [("kind", ofText "nullable"), ("inner", inner.toJson)]
  | .collection element => ofMembers [("kind", ofText "collection"), ("element", element.toJson)]
  | .dictionary key value =>
      ofMembers [("kind", ofText "dictionary"), ("key", key.toJson), ("value", value.toJson)]
  | .reference name kind [] =>
      ofMembers [("kind", ofText "reference"), ("name", ofText name),
        ("dependencyKind", ofText kind.text)]
  | .reference name kind (argument :: rest) =>
      ofMembers [("kind", ofText "reference"), ("name", ofText name),
        ("dependencyKind", ofText kind.text),
        ("arguments", .array (argument.toJson :: listToJson rest))]
  | .typeParameter name => ofMembers [("kind", ofText "typeParameter"), ("name", ofText name)]
  | .unknown => ofMembers [("kind", ofText "unknown")]

/-- The descriptions of several types. -/
def listToJson : List TypeExpr → List Json
  | [] => []
  | type :: rest => type.toJson :: listToJson rest

end

end TypeExpr

/-! ## Models -/

/-- One of a few names in a record. -/
def name? (levels : Nat) (value : Json) : Option String :=
  choice? levels isNull value

/-- An explicit dependency. -/
def TypeReference.ofJson? (levels : Nat) (value : Json) : Option TypeReference := do
  match ← value.record? levels ["name", "dependencyKind"] with
  | (inside, [some name, some kind]) =>
      return ⟨← name.text?, ← DependencyKind.ofText? (← name? inside kind)⟩
  | _ => none

/-- The description of an explicit dependency. -/
def TypeReference.toJson (reference : TypeReference) : Json :=
  ofMembers [("name", ofText reference.name), ("dependencyKind", ofText reference.kind.text)]

/-- A property. -/
def Property.ofJson? (levels : Nat) (value : Json) : Option Property := do
  match ← value.record? levels ["name", "type"] with
  | (inside, [some name, some type]) => return ⟨← name.text?, ← TypeExpr.ofJson? inside type⟩
  | _ => none

/-- The description of a property. -/
def Property.toJson (property : Property) : Json :=
  ofMembers [("name", ofText property.name), ("type", property.type.toJson)]

/-- A class. -/
def Class.ofJson? (levels : Nat) (value : Json) : Option Class := do
  match ← value.record? levels ["name", "baseClass", "typeParameter", "properties", "imports"] with
  | (inside, [some name, baseClass, typeParameter, properties, imports]) =>
      return {
        name := ← name.text?
        baseClass := ← optional? (TypeExpr.ofJson? inside) baseClass
        typeParameter := ← optional? text? typeParameter
        properties := ← list? inside Property.ofJson? properties
        imports := ← list? inside TypeReference.ofJson? imports }
  | _ => none

/-- The description of a class. -/
def Class.toJson (model : Class) : Json :=
  ofMembers [("name", ofText model.name),
    ("baseClass", (model.baseClass.map TypeExpr.toJson).getD .null),
    ("typeParameter", ofText? model.typeParameter),
    ("properties", .array (model.properties.map Property.toJson)),
    ("imports", .array (model.imports.map TypeReference.toJson))]

/-- A member of an enumeration. -/
def EnumMember.ofJson? (levels : Nat) (value : Json) : Option EnumMember := do
  match ← value.record? levels ["name", "value"] with
  | (_, [some name, value]) => return ⟨← name.text?, ← optional? text? value⟩
  | _ => none

/-- The description of a member of an enumeration. -/
def EnumMember.toJson (member : EnumMember) : Json :=
  ofMembers [("name", ofText member.name), ("value", ofText? member.value)]

/-- An enumeration. -/
def Enum.ofJson? (levels : Nat) (value : Json) : Option Enum := do
  match ← value.record? levels ["name", "members"] with
  | (inside, [some name, members]) =>
      return ⟨← name.text?, ← list? inside EnumMember.ofJson? members⟩
  | _ => none

/-- The description of an enumeration. -/
def Enum.toJson (model : Enum) : Json :=
  ofMembers [("name", ofText model.name),
    ("members", .array (model.members.map EnumMember.toJson))]

/-- A parameter. -/
def Parameter.ofJson? (levels : Nat) (value : Json) : Option Parameter := do
  match ← value.record? levels ["name", "type"] with
  | (inside, [some name, some type]) => return ⟨← name.text?, ← TypeExpr.ofJson? inside type⟩
  | _ => none

/-- The description of a parameter. -/
def Parameter.toJson (parameter : Parameter) : Json :=
  ofMembers [("name", ofText parameter.name), ("type", parameter.type.toJson)]

/-- A method. -/
def Method.ofJson? (levels : Nat) (value : Json) : Option Method := do
  match ← value.record? levels ["name", "httpMethod", "returnType", "parameters"] with
  | (inside, [some name, some verb, some returnType, parameters]) =>
      return {
        name := ← name.text?
        verb := ← Http.Verb.ofText? (← name? inside verb)
        returnType := ← TypeExpr.ofJson? inside returnType
        parameters := ← list? inside Parameter.ofJson? parameters }
  | _ => none

/-- The description of a method. -/
def Method.toJson (method : Method) : Json :=
  ofMembers [("name", ofText method.name), ("httpMethod", ofText method.verb.text),
    ("returnType", method.returnType.toJson),
    ("parameters", .array (method.parameters.map Parameter.toJson))]

/-- A service. -/
def Service.ofJson? (levels : Nat) (value : Json) : Option Service := do
  match ← value.record? levels ["name", "routePrefix", "methods", "imports"] with
  | (inside, [some name, some route, methods, imports]) =>
      return {
        name := ← name.text?
        route := ← route.text?
        methods := ← list? inside Method.ofJson? methods
        imports := ← list? inside TypeReference.ofJson? imports }
  | _ => none

/-- The description of a service. -/
def Service.toJson (model : Service) : Json :=
  ofMembers [("name", ofText model.name), ("routePrefix", ofText model.route),
    ("methods", .array (model.methods.map Method.toJson)),
    ("imports", .array (model.imports.map TypeReference.toJson))]

/-- The graph a document describes. -/
def Graph.ofJson? (levels : Nat) (value : Json) : Option Graph := do
  match ← value.record? levels ["classes", "enums", "services"] with
  | (inside, [classes, enums, services]) =>
      return {
        classes := ← list? inside Class.ofJson? classes
        enums := ← list? inside Enum.ofJson? enums
        services := ← list? inside Service.ofJson? services }
  | _ => none

/-- The description of a graph. -/
def Graph.toJson (graph : Graph) : Json :=
  ofMembers [("classes", .array (graph.classes.map Class.toJson)),
    ("enums", .array (graph.enums.map Enum.toJson)),
    ("services", .array (graph.services.map Service.toJson))]

/-- Read a type. -/
def TypeExpr.parse? (document : String) : Option TypeExpr := do
  TypeExpr.ofJson? maxLevels (← Json.parse? document)

/-- Write a type. -/
def TypeExpr.write (type : TypeExpr) : String :=
  type.toJson.compact

/-- Read a graph. -/
def Graph.parse? (document : String) : Option Graph := do
  Graph.ofJson? maxLevels (← Json.parse? document)

/-- Write a graph. -/
def Graph.write (graph : Graph) : String :=
  graph.toJson.compact

/-! ## Loading a graph from a file -/

/-- Why there is no graph in a file. -/
inductive LoadError where
  /-- A file of another kind, with its extension. -/
  | unsupportedExtension (extension : String)
  | unreadable (path : Path) (cause : FileError)
  | malformed (path : Path)
  deriving Repr, DecidableEq

/-- The extensions of files that hold graphs. -/
def supportedExtensions : List String := [".json"]

/-- The text shown for a fault. -/
def LoadError.message : LoadError → String
  | .unsupportedExtension extension =>
      "Unsupported path extension - " ++ extension ++ ". Supported extensions: " ++
        ", ".intercalate supportedExtensions
  | .unreadable path cause =>
      "Failed to read source input " ++ path.text ++ ": " ++ cause.message
  | .malformed path => "Malformed model graph " ++ path.text

/-- The extension of a path with its dot, or nothing. -/
def extensionText (path : Path) : String :=
  match path.extension? with
  | some extension => "." ++ extension
  | none => ""

/-- The graph in the file at a path. -/
def Graph.load {m : Type → Type} [Monad m] [MonadFiles m] (path : Path) :
    m (Except LoadError Graph) := do
  if supportedExtensions.contains (extensionText path) then
    match ← MonadFiles.readText path with
    | .error cause => return .error (.unreadable path cause)
    | .ok text =>
        match Graph.parse? text with
        | some graph => return .ok graph
        | none => return .error (.malformed path)
  else return .error (.unsupportedExtension (extensionText path))

end ApiBindings.Source
