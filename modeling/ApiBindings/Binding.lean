import ApiBindings.Binding.TypeMapping
import ApiBindings.Identifier
import ApiBindings.Layout
import ApiBindings.Source.Graph
import ApiBindings.Target.Declaration

/-!
# Binding models

The declaration that a model becomes.  Declared names are kept and have to be legal, names of
members are converted, and every type that is referred to is imported from the file it is generated
to.
-/

namespace ApiBindings.Binding

/-!
### Scopes

The names of one scope, each with the source name that stands behind it.  A second claim to a name
is a collision, also by the same source name.
-/

/-- The names claimed so far, latest first, each with what it was converted from. -/
structure Scope where
  claimed : List (String × String) := []
  deriving Repr

namespace Scope

/-- Claim a name for a source name. -/
def claim (scope : Scope) (source converted : String) : Except NameError Scope :=
  match scope.claimed.lookup converted with
  | some first => .error (.collision first source converted)
  | none => .ok ⟨(converted, source) :: scope.claimed⟩

/-- Claim the member case of a source name. -/
def convert (scope : Scope) (source : String) : Except NameError (String × Scope) := do
  let converted ← Identifier.toMemberCase source
  return (converted, ← scope.claim source converted)

/-- A scope whose given names are taken. -/
def ofNames (names : List String) : Scope :=
  ⟨names.map fun name => (name, name)⟩

end Scope

/-! ### Imports -/

/-- What binding depends on apart from the model. -/
structure Context where
  layout : Layout
  dates : DateMapping := .date
  deriving Repr, DecidableEq

/-- A fault of a name is a fault of its model. -/
def liftName {α : Type} : Except NameError α → Except BindError α
  | .ok value => .ok value
  | .error error => .error (.naming error)

/-- The import of a type by a file of a category. -/
def importOf (layout : Layout) (consumer : Category) (reference : Source.TypeReference) :
    Except BindError Target.Import :=
  if !Identifier.isValid reference.name then .error (.invalidReference reference.name)
  else match layout.importPath? consumer reference.name reference.kind.category with
    | some path => .ok ⟨[reference.name], path⟩
    | none => .error (.invalidReference reference.name)

/-- Add the imports of the types a declaration refers to, apart from the names it binds itself. -/
def importAll (layout : Layout) (consumer : Category) (bound : List String) :
    List Source.TypeReference → Target.ImportSet → Except BindError Target.ImportSet
  | [], imports => .ok imports
  | reference :: rest, imports =>
      if bound.contains reference.name then importAll layout consumer bound rest imports
      else do
        let new ← importOf layout consumer reference
        importAll layout consumer bound rest (imports.insert new)

/-! ### Classes -/

/-- The type of a base class. Only a class can be one. -/
def bindBase (dates : DateMapping) :
    Option Source.TypeExpr → Except BindError (Mapped (Option Target.TypeExpr))
  | none => .ok ⟨none, []⟩
  | some base =>
      match base with
      | .reference .. => do
          let base ← mapType dates base
          return ⟨some base.type, base.references⟩
      | other => .error (.unsupportedKind ("base class " ++ other.display))

/-- The properties of a class. -/
def bindProperties (dates : DateMapping) :
    Scope → List Source.Property → Except BindError (Mapped (List Target.Property))
  | _, [] => .ok ⟨[], []⟩
  | scope, property :: rest => do
      let type ← mapType dates property.type
      let (name, scope) ← liftName (scope.convert property.name)
      let rest ← bindProperties dates scope rest
      return ⟨{ name, type := some type.type } :: rest.type, type.references ++ rest.references⟩

/-- The declaration of a data class. -/
def bindClass (context : Context) (model : Source.Class) :
    Except BindError Target.DataClass := do
  liftName (Identifier.checkDeclared model.name)
  let base ← bindBase context.dates model.baseClass
  let properties ← bindProperties context.dates {} model.properties
  let typeParameters := model.typeParameter.toList
  let imports ← importAll context.layout .model (model.name :: typeParameters)
    (base.references ++ properties.references ++ model.imports) {}
  return {
    name := model.name
    baseClass := base.type
    typeParameters
    imports := imports.entries
    properties := properties.type }

/-! ### Services -/

/-- The imports that every service starts with. -/
def transportImports : List Target.Import := [
  ⟨["Injectable"], "@angular/core"⟩,
  ⟨["Headers", "Http", "Response"], "@angular/http"⟩]

/-- The decorator of every service. -/
def serviceDecorator : String := "Injectable"

/-- The property that holds the route of a service. -/
def routeProperty : String := "baseUrl"

/-- The property that holds the client of a service. -/
def transportProperty : String := "http"

/-- The type of the client. -/
def transportType : String := "Http"

/-- The parameters of a method. -/
def bindParameters (dates : DateMapping) :
    Scope → List Source.Parameter → Except BindError (Mapped (List Target.Parameter))
  | _, [] => .ok ⟨[], []⟩
  | scope, parameter :: rest => do
      let type ← mapType dates parameter.type
      let (name, scope) ← liftName (scope.convert parameter.name)
      let rest ← bindParameters dates scope rest
      return ⟨{ name, type := type.type } :: rest.type, type.references ++ rest.references⟩

/-- The methods of a service. Each method is a scope of its own for its parameters. -/
def bindMethods (dates : DateMapping) :
    Scope → List Source.Method → Except BindError (Mapped (List Target.Method))
  | _, [] => .ok ⟨[], []⟩
  | scope, method :: rest => do
      let (name, scope) ← liftName (scope.convert method.name)
      let returnType ← mapType dates method.returnType
      let parameters ← bindParameters dates {} method.parameters
      let rest ← bindMethods dates scope rest
      return ⟨{ name, returnType := returnType.type, parameters := parameters.type,
                verb := some method.verb } :: rest.type,
        returnType.references ++ parameters.references ++ rest.references⟩

/-- The declaration of a service. -/
def bindService (context : Context) (model : Source.Service) :
    Except BindError Target.ServiceClass := do
  liftName (Identifier.checkDeclared model.name)
  let methods ← bindMethods context.dates (.ofNames [routeProperty, transportProperty])
    model.methods
  let imports ← importAll context.layout .service [model.name]
    (methods.references ++ model.imports) (Target.ImportSet.extend {} transportImports)
  return {
    name := model.name
    decorators := [serviceDecorator]
    imports := imports.entries
    properties := [{ name := routeProperty, isPrivate := true, initialValue := some model.route }]
    constructorParameters :=
      [{ name := transportProperty, type := .reference transportType, isPrivate := true }]
    methods := methods.type }

/-! ### Enumerations -/

/-- The members of an enumeration. Their names are kept and have to be distinct identifiers. -/
def bindMembers : Scope → List Source.EnumMember → Except BindError (List Target.EnumMember)
  | _, [] => .ok []
  | scope, member :: rest =>
      if !Identifier.isValid member.name then .error (.naming (.invalid member.name))
      else do
        let scope ← liftName (scope.claim member.name member.name)
        return { name := member.name, value := member.value } :: (← bindMembers scope rest)

/-- The declaration of an enumeration. -/
def bindEnum (model : Source.Enum) : Except BindError Target.Enum := do
  liftName (Identifier.checkDeclared model.name)
  return { name := model.name, members := ← bindMembers {} model.members }

/-- The declaration of a model. -/
def bind (context : Context) : Source.Model → Except BindError Target.Declaration
  | .ofClass model => return .dataClass (← bindClass context model)
  | .ofEnum model => return .enum (← bindEnum model)
  | .ofService model => return .service (← bindService context model)

end ApiBindings.Binding
