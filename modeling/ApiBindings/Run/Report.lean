import ApiBindings.Plan
import ApiBindings.Rendering

/-!
# Reports

What became of each model of a run, in the order of the models.
-/

namespace ApiBindings

/-- Why there is no file for a model. -/
inductive ModelFailure where
  | binding (error : BindError)
  | rendering (error : RenderError)
  | emission (error : EmitError)
  deriving Repr, DecidableEq

/-- The text shown for a failure. -/
def ModelFailure.message : ModelFailure → String
  | .binding error => "translation failed: " ++ error.message
  | .rendering error => "render dispatch failed: " ++ error.message
  | .emission error => "emit failed: " ++ error.message

/-- What became of one model: its file, or why there is none. -/
structure Outcome where
  id : ModelId
  result : Except ModelFailure Path

/-- What became of the models of a run. -/
structure Report where
  outcomes : List Outcome := []

namespace Report

/-- The models that have a file, with its path. -/
def succeeded (report : Report) : List (ModelId × Path) :=
  report.outcomes.filterMap fun outcome =>
    match outcome.result with
    | .ok path => some (outcome.id, path)
    | .error _ => none

/-- The models that have none, with the reason. -/
def failures (report : Report) : List (ModelId × ModelFailure) :=
  report.outcomes.filterMap fun outcome =>
    match outcome.result with
    | .ok _ => none
    | .error failure => some (outcome.id, failure)

/-- Whether every model has a file. -/
def isComplete (report : Report) : Bool :=
  report.outcomes.all (·.result.isOk)

end Report

end ApiBindings

namespace ApiBindings.Run

/-!
## The work on one model

From an entry of a plan to its outcome, without regard to time.
-/

variable {m : Type → Type} [Monad m] [MonadFiles m]

/-- Have the request of an entry rendered and write its file. -/
def workOn (layout : Layout) (render : Request → m Rendered) (entry : Plan.Entry) : m Outcome := do
  match entry.request with
  | .error error => return ⟨entry.id, .error (.binding error)⟩
  | .ok request =>
      match ← render request with
      | .error error => return ⟨entry.id, .error (.rendering error)⟩
      | .ok text =>
          match ← layout.emit entry.id text with
          | .error error => return ⟨entry.id, .error (.emission error)⟩
          | .ok path => return ⟨entry.id, .ok path⟩

end ApiBindings.Run
