import ApiBindings.Http
import ApiBindings.Target.TypeExpr

/-!
# Declarations

The TypeScript declarations that models become: data classes, service classes and enumerations.
Only a service has a constructor and remote methods, and only a data class has a base class and
type parameters.  Declarations come with import statements, of which a file has one a module.
-/

namespace ApiBindings.Target

/-! ## Imports -/

/-- The names taken from one module. Without names, the module is loaded for its effects. -/
structure Import where
  names : List String
  path : String
  deriving Repr, DecidableEq

/-- Add names to a list that has each name once. -/
def addNames (names new : List String) : List String :=
  new.foldl (fun names name => if names.contains name then names else names ++ [name]) names

/-- Imports with one entry a module, each name once in an entry, in the order they were first
seen. -/
structure ImportSet where
  entries : List Import := []
  deriving Repr, DecidableEq

namespace ImportSet

/-- Add an import to a list of entries. -/
def insertInto (new : Import) : List Import → List Import
  | [] => [⟨addNames [] new.names, new.path⟩]
  | entry :: rest =>
      if entry.path == new.path then ⟨addNames entry.names new.names, entry.path⟩ :: rest
      else entry :: insertInto new rest

/-- Add an import. Its names join those of the entry for the same module. -/
def insert (set : ImportSet) (new : Import) : ImportSet :=
  ⟨insertInto new set.entries⟩

/-- Add several imports, one after the other. -/
def extend (set : ImportSet) (new : List Import) : ImportSet :=
  new.foldl insert set

/-- The number of modules. -/
def size (set : ImportSet) : Nat :=
  set.entries.length

/-- Whether nothing is imported. -/
def isEmpty (set : ImportSet) : Bool :=
  set.entries.isEmpty

end ImportSet

/-! ## Members and declarations -/

/-- A property of a class. -/
structure Property where
  name : String
  /-- The declared type; without one it is inferred from the initial value. -/
  type : Option TypeExpr := none
  isPrivate : Bool := false
  /-- The text that the property starts with. -/
  initialValue : Option String := none
  deriving Repr

/-- A parameter of a method or constructor. A private parameter of a constructor declares a property
too. -/
structure Parameter where
  name : String
  type : TypeExpr
  isPrivate : Bool := false
  deriving Repr

/-- A method. With a verb it sends a request and answers with its payload. -/
structure Method where
  name : String
  returnType : TypeExpr
  parameters : List Parameter := []
  verb : Option Http.Verb := none
  deriving Repr

/-- A data class. -/
structure DataClass where
  name : String
  baseClass : Option TypeExpr := none
  /-- Decorators without the `@`. -/
  decorators : List String := []
  typeParameters : List String := []
  imports : List Import := []
  properties : List Property := []
  deriving Repr

/-- A class that talks to a service. -/
structure ServiceClass where
  name : String
  decorators : List String := []
  imports : List Import := []
  properties : List Property := []
  /-- The parameters of the constructor. -/
  constructorParameters : List Parameter := []
  methods : List Method := []
  deriving Repr

/-- A member of an enumeration, with the text of its value. -/
structure EnumMember where
  name : String
  value : Option String := none
  deriving Repr, DecidableEq

/-- An enumeration. -/
structure Enum where
  name : String
  members : List EnumMember := []
  deriving Repr, DecidableEq

/-- What one model becomes. -/
inductive Declaration where
  | dataClass (declaration : DataClass)
  | service (declaration : ServiceClass)
  | enum (declaration : Enum)
  deriving Repr

/-- The declared name. -/
def Declaration.name : Declaration → String
  | .dataClass declaration => declaration.name
  | .service declaration => declaration.name
  | .enum declaration => declaration.name

end ApiBindings.Target
