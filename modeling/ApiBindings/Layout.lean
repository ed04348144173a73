import ApiBindings.Identifier
import ApiBindings.Path
import ApiBindings.Source.Graph

/-!
# Output layout

Where generated files go: a root, and a directory for each category of files.  The same table says
where a file is written and how one generated file imports another.
-/

namespace ApiBindings

/-- The categories of generated files. -/
inductive Category where
  | model
  | enum
  | service
  deriving Repr, DecidableEq

namespace Category

/-- The name of a category, which is also part of the names of its files. -/
def text : Category → String
  | .model => "model"
  | .enum => "enum"
  | .service => "service"

/-- The directory of a category unless another one is chosen. -/
def defaultDirectory : Category → String
  | .model => "models"
  | .enum => "enums"
  | .service => "services"

end Category

/-- The category of the file that a dependency is declared in. -/
def Source.DependencyKind.category : Source.DependencyKind → Category
  | .model => .model
  | .enum => .enum

/-- A root and the directories below it. -/
structure Layout where
  root : Path
  models : String := Category.defaultDirectory .model
  enums : String := Category.defaultDirectory .enum
  services : String := Category.defaultDirectory .service
  deriving Repr, DecidableEq

namespace Layout

/-- The directory of a category. -/
def directory (layout : Layout) : Category → String
  | .model => layout.models
  | .enum => layout.enums
  | .service => layout.services

/-- Choose the directory of a category. -/
def withDirectory (layout : Layout) (category : Category) (directory : String) : Layout :=
  match category with
  | .model => { layout with models := directory }
  | .enum => { layout with enums := directory }
  | .service => { layout with services := directory }

/-- The name of a module without its extension: `user-profile.model`. -/
def moduleName (typeName : String) (category : Category) : Except NameError String := do
  return (← Identifier.toFileCase typeName) ++ "." ++ category.text

/-- The name of a file: `user-profile.model.ts`. -/
def fileName (typeName : String) (category : Category) : Except NameError String := do
  return (← moduleName typeName category) ++ ".ts"

/-- The path of the file for a type. There is none for a name without a file case. -/
def filePath? (layout : Layout) (typeName : String) (category : Category) : Option Path :=
  match fileName typeName category with
  | .ok name => some ((layout.root.join (layout.directory category)).join name)
  | .error _ => none

/-- The module path by which a file of category `consumer` imports a type. Within one directory the
path stays in it; to any other it goes through the directory above. -/
def importPath? (layout : Layout) (consumer : Category) (typeName : String)
    (dependency : Category) : Option String :=
  match moduleName typeName dependency with
  | .ok name =>
      if layout.directory consumer == layout.directory dependency then some ("./" ++ name)
      else some ("../" ++ layout.directory dependency ++ "/" ++ name)
  | .error _ => none

end Layout

end ApiBindings
