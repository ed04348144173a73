import ApiBindings.Files
import ApiBindings.Request

/-!
# Plans

The requests for the models of a graph, in the order the models are declared in.  A model that
cannot be generated does not affect the others.  Each file belongs to one model: of several models
with the same file, the first keeps it.  The text that comes of a request goes to the file that the
layout has for its model.
-/

namespace ApiBindings

/-- What tells the models of a graph apart in reports. -/
structure ModelId where
  name : String
  category : Category
  deriving Repr, DecidableEq

namespace ModelId

/-- The identity of a model. -/
def ofModel : Source.Model → ModelId
  | .ofClass model => ⟨model.name, .model⟩
  | .ofEnum model => ⟨model.name, .enum⟩
  | .ofService model => ⟨model.name, .service⟩

/-- An identity as it is shown. -/
def text (id : ModelId) : String :=
  id.name ++ " (" ++ id.category.text ++ ")"

end ModelId

namespace Plan

/-- One model of a plan. -/
structure Entry where
  id : ModelId
  request : Except BindError Request

/-- The files that models own, each with the name of its owner. -/
abbrev Owners := List (Path × String)

/-- The owner of a file. -/
def Owners.find? (owners : Owners) (path : Path) : Option String :=
  (List.find? (·.1.same path) owners).map (·.2)

/-- Let a model have the file of its request, unless another model owns it. -/
def claim (owners : Owners) (id : ModelId) : Except BindError Request → Entry × Owners
  | .error error => (⟨id, .error error⟩, owners)
  | .ok request =>
      match owners.find? request.path with
      | some owner => (⟨id, .error (.outputTaken request.path owner)⟩, owners)
      | none => (⟨id, .ok request⟩, owners ++ [(request.path, id.name)])

/-- The entries for several models, next to the files that earlier models own. -/
def entries (context : Binding.Context) : Owners → List Source.Model → List Entry
  | _, [] => []
  | owners, model :: rest =>
      let (entry, owners) := claim owners (.ofModel model) (Request.ofModel context model)
      entry :: entries context owners rest

/-- The plan for a graph. -/
def ofGraph (context : Binding.Context) (graph : Source.Graph) : List Entry :=
  entries context [] graph.models

end Plan

section Emission

variable {m : Type → Type} [Monad m] [MonadFiles m]

/-- Write the text of a model to its file. -/
def Layout.emit (layout : Layout) (id : ModelId) (contents : String) :
    m (Except EmitError Path) :=
  match layout.filePath? id.name id.category with
  | some path => writeInto path contents
  | none => return .error ⟨layout.root, .refused (BindError.invalidReference id.name).message⟩

end Emission

end ApiBindings
