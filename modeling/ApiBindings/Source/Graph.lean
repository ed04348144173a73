import ApiBindings.Http

/-!
# Model graphs

Everything that is generated from one input: data classes, enumerations and services, in the order
they are declared in, and the types that their properties, parameters and results are declared with.
-/

namespace ApiBindings.Source

/-! ## Types -/

/-- What a reference refers to. -/
inductive DependencyKind where
  | model
  | enum
  deriving Repr, DecidableEq

/-- A type as it is declared. -/
inductive TypeExpr where
  /-- A built-in type. -/
  | primitive (name : String)
  /-- A type whose values may be absent. -/
  | nullable (inner : TypeExpr)
  | collection (element : TypeExpr)
  | dictionary (key value : TypeExpr)
  /-- A class or an enumeration, with the arguments of a generic class. -/
  | reference (name : String) (kind : DependencyKind) (arguments : List TypeExpr)
  /-- The type parameter of the class around it. -/
  | typeParameter (name : String)
  /-- A kind of type that has no counterpart here. -/
  | unknown
  deriving Repr, Inhabited

namespace TypeExpr

mutual

/-- A type as it is shown in messages. -/
def display : TypeExpr → String
  | .primitive name => name
  | .nullable inner => inner.display ++ "?"
  | .collection element => element.display ++ "[]"
  | .dictionary key value => "Dictionary<" ++ key.display ++ ", " ++ value.display ++ ">"
  | .reference name _ [] => name
  | .reference name _ (argument :: rest) =>
      name ++ "<" ++ argument.display ++ displayRest rest ++ ">"
  | .typeParameter name => name
  | .unknown => "<unknown>"

/-- The arguments after the first. -/
def displayRest : List TypeExpr → String
  | [] => ""
  | argument :: rest => ", " ++ argument.display ++ displayRest rest

end

end TypeExpr

/-! ## Models -/

/-- A type that a model depends on beyond the types it is declared with. -/
structure TypeReference where
  name : String
  kind : DependencyKind
  deriving Repr, DecidableEq

/-- A property of a class. -/
structure Property where
  name : String
  type : TypeExpr
  deriving Repr

/-- A data class. It has one type parameter at most. -/
structure Class where
  name : String
  baseClass : Option TypeExpr := none
  typeParameter : Option String := none
  properties : List Property := []
  imports : List TypeReference := []
  deriving Repr

/-- A member of an enumeration, with its value as it is written there. -/
structure EnumMember where
  name : String
  value : Option String := none
  deriving Repr, DecidableEq

/-- An enumeration. -/
structure Enum where
  name : String
  members : List EnumMember := []
  deriving Repr, DecidableEq

/-- A parameter of a method. -/
structure Parameter where
  name : String
  type : TypeExpr
  deriving Repr

/-- An action of a service. -/
structure Method where
  name : String
  verb : Http.Verb
  returnType : TypeExpr
  parameters : List Parameter := []
  deriving Repr

/-- A service. All of its actions live under one route. -/
structure Service where
  name : String
  route : String
  methods : List Method := []
  imports : List TypeReference := []
  deriving Repr

/-- One model of any sort. -/
inductive Model where
  | ofClass (model : Class)
  | ofEnum (model : Enum)
  | ofService (model : Service)
  deriving Repr

/-- The name a model is declared with. -/
def Model.name : Model → String
  | .ofClass model => model.name
  | .ofEnum model => model.name
  | .ofService model => model.name

/-- The models of one input. -/
structure Graph where
  classes : List Class := []
  enums : List Enum := []
  services : List Service := []
  deriving Repr

namespace Graph

/-- The models in the order they are generated in: classes, enumerations, services. -/
def models (graph : Graph) : List Model :=
  graph.classes.map .ofClass ++ graph.enums.map .ofEnum ++ graph.services.map .ofService

/-- The number of models. -/
def size (graph : Graph) : Nat :=
  graph.classes.length + graph.enums.length + graph.services.length

/-- Whether there is nothing to generate. -/
def isEmpty (graph : Graph) : Bool :=
  graph.size == 0

@[simp] theorem length_models (graph : Graph) : graph.models.length = graph.size := by
  simp [models, size]
  omega

end Graph

end ApiBindings.Source
