import ApiBindings.Binding
import ApiBindings.Json.Fields
import ApiBindings.Json.Printer
import ApiBindings.Target.Printer

/-!
# Generation requests

A declaration together with the file it belongs to, and its form on the wire to a rendering service.
Data classes and services share one shape on the wire: what a data class does not have is `null` or
empty there.
-/

namespace ApiBindings

open Json

/-- One file to generate. -/
structure Request where
  path : Path
  category : Category
  declaration : Target.Declaration
  deriving Repr

/-- The category of the file that a declaration is written to. -/
def Target.Declaration.category : Target.Declaration → Category
  | .dataClass _ => .model
  | .service _ => .service
  | .enum _ => .enum

namespace Request

/-- The declared name. -/
def name (request : Request) : String :=
  request.declaration.name

/-- Give a declaration its file. -/
def ofDeclaration (layout : Layout) (declaration : Target.Declaration) :
    Except BindError Request :=
  match layout.filePath? declaration.name declaration.category with
  | some path => .ok ⟨path, declaration.category, declaration⟩
  | none => .error (.invalidReference declaration.name)

/-- The request for one model on its own. -/
def ofModel (context : Binding.Context) (model : Source.Model) : Except BindError Request := do
  ofDeclaration context.layout (← Binding.bind context model)

/-! ### The wire format -/

/-- A list of texts. -/
def textsToJson (texts : List String) : Json :=
  .array (texts.map ofText)

/-- An import on the wire. -/
def importToJson (statement : Target.Import) : Json :=
  ofMembers [("names", textsToJson statement.names), ("path", ofText statement.path)]

/-- A property on the wire. -/
def propertyToJson (property : Target.Property) : Json :=
  ofMembers [("name", ofText property.name),
    ("type", ofText? (property.type.map Target.TypeExpr.text)),
    ("isPrivate", .bool property.isPrivate), ("initialValue", ofText? property.initialValue)]

/-- A parameter on the wire. -/
def parameterToJson (parameter : Target.Parameter) : Json :=
  ofMembers [("name", ofText parameter.name), ("type", ofText parameter.type.text),
    ("isPrivate", .bool parameter.isPrivate)]

/-- A method on the wire. -/
def methodToJson (method : Target.Method) : Json :=
  ofMembers [("name", ofText method.name), ("returnType", ofText method.returnType.text),
    ("parameters", .array (method.parameters.map parameterToJson)),
    ("isHttpService", .bool method.verb.isSome),
    ("httpMethod", ofText? (method.verb.map Http.Verb.text))]

/-- A data class on the wire. -/
def dataClassToJson (declaration : Target.DataClass) : Json :=
  ofMembers [("name", ofText declaration.name),
    ("baseClass", ofText? (declaration.baseClass.map Target.TypeExpr.text)),
    ("decorators", textsToJson declaration.decorators),
    ("typeParameters", textsToJson declaration.typeParameters),
    ("imports", .array (declaration.imports.map importToJson)),
    ("properties", .array (declaration.properties.map propertyToJson)),
    ("constructorDef", .null), ("methods", .null)]

/-- A service on the wire. -/
def serviceToJson (declaration : Target.ServiceClass) : Json :=
  ofMembers [("name", ofText declaration.name), ("baseClass", .null),
    ("decorators", textsToJson declaration.decorators), ("typeParameters", .array []),
    ("imports", .array (declaration.imports.map importToJson)),
    ("properties", .array (declaration.properties.map propertyToJson)),
    ("constructorDef", ofMembers
      [("parameters", .array (declaration.constructorParameters.map parameterToJson))]),
    ("methods", .array (declaration.methods.map methodToJson))]

/-- A member of an enumeration on the wire. -/
def enumMemberToJson (member : Target.EnumMember) : Json :=
  ofMembers [("name", ofText member.name), ("value", ofText? member.value)]

/-- An enumeration on the wire. -/
def enumToJson (declaration : Target.Enum) : Json :=
  ofMembers [("name", ofText declaration.name),
    ("members", .array (declaration.members.map enumMemberToJson))]

/-- A declaration on the wire. -/
def declarationToJson : Target.Declaration → Json
  | .dataClass declaration => dataClassToJson declaration
  | .service declaration => serviceToJson declaration
  | .enum declaration => enumToJson declaration

/-- A path on the wire, where only slashes separate its parts. -/
def wirePath (path : Path) : String :=
  String.ofList (path.text.toList.map fun c => if c == '\\' then '/' else c)

/-- A request on the wire. -/
def toJson (request : Request) : Json :=
  ofMembers [("outputPath", ofText (wirePath request.path)),
    ("dataModel", declarationToJson request.declaration)]

/-- The text of a request on the wire. -/
def wire (request : Request) : String :=
  request.toJson.compact

/-- The address of the rendering service's part that handles a request. -/
def endpoint (request : Request) : String :=
  match request.declaration with
  | .dataClass _ | .service _ => "/generate/class"
  | .enum _ => "/generate/enum"

end Request

end ApiBindings
