import ApiBindings.Run.Schedule
import ApiBindings.Source.Document

/-!
# Runs

From a graph file to generated files: load the graph, plan the requests, have them rendered and
write the texts.  Only a graph that does not load ends a run; every other fault stays with its
model.
-/

namespace ApiBindings.Run

/-- How requests are retried, and how many models may be started and not yet delivered. -/
structure Options where
  retry : RetryPolicy := {}
  concurrency : Nat := 8
  deriving Repr, DecidableEq

/-- The slots of a run. There is at least one. -/
def Options.slots (options : Options) : Nat :=
  max options.concurrency 1

/-- What a run comes to. The calls are those of this run, the latest first. -/
structure Summary where
  report : Report := {}
  calls : List Call := []
  elapsed : Nat := 0

/-- The state of a run that has not started any of its entries. -/
def Schedule.initial {σ : Type} (plan : List Plan.Entry) (state : σ) : Schedule σ :=
  { world := { state }, waiting := plan }

/-- Run a plan. -/
def ofPlan {σ : Type} (tools : Tools σ) (slots : Nat) (plan : List Plan.Entry) :
    StateM σ Summary := fun state =>
  let final := (Schedule.initial plan state).complete tools slots
  ({ report := ⟨final.delivered⟩, calls := final.world.calls, elapsed := final.world.clock },
    final.world.state)

section Loading

variable {m : Type → Type} [Monad m] (perform : List Plan.Entry → m Summary)
  (context : Binding.Context)

/-- Perform the plan for what was loaded. -/
def ofLoaded : Except Source.LoadError Source.Graph → m (Except Source.LoadError Summary)
  | .error error => return .error error
  | .ok graph => return .ok (← perform (Plan.ofGraph context graph))

/-- Perform the plan for the graph in a file. -/
def ofFile [MonadFiles m] (source : Path) : m (Except Source.LoadError Summary) := do
  ofLoaded perform context (← Source.Graph.load source)

end Loading

/-- The state of a renderer next to the files that a run works on. -/
structure Site (σ : Type) where
  renderer : σ
  files : FileTree

namespace Site

variable {σ : Type}

/-- Do something with the renderer of a site. -/
def withRenderer {α : Type} (action : StateM σ α) : StateM (Site σ) α := fun site =>
  let done := action.run site.renderer
  (done.1, { site with renderer := done.2 })

/-- Do something with the files of a site. -/
def withFiles {α : Type} (action : StateM FileTree α) : StateM (Site σ) α := fun site =>
  let done := action.run site.files
  (done.1, { site with files := done.2 })

instance : MonadFiles (StateM (Site σ)) where
  hasPath path := withFiles (MonadFiles.hasPath path)
  hasDirectory path := withFiles (MonadFiles.hasDirectory path)
  readText path := withFiles (MonadFiles.readText path)
  createDirectory path := withFiles (MonadFiles.createDirectory path)
  writeText path text := withFiles (MonadFiles.writeText path text)

/-- The tools that render and write at a site. -/
def tools (render : Renderer σ) (layout : Layout) (policy : RetryPolicy) : Tools (Site σ) where
  render request := withRenderer (render request)
  emit id text := withFiles (layout.emit id text)
  policy

/-- Perform a plan at a site. -/
def perform (render : Renderer σ) (layout : Layout) (options : Options) (plan : List Plan.Entry) :
    StateM (Site σ) Summary :=
  ofPlan (tools render layout options.retry) options.slots plan

end Site

/-- The text shown for a graph that does not load. -/
def failureMessage (error : Source.LoadError) : String :=
  "Source analysis error: " ++ error.message

/-- Where a generator stands between two runs. -/
inductive Stage where
  | idle
  | done
  | failed
  deriving Repr, DecidableEq

namespace Stage

/-- The name of a stage. -/
def text : Stage → String
  | .idle => "idle"
  | .done => "done"
  | .failed => "failed"

/-- The stage after a run. -/
def after : Except Source.LoadError Summary → Stage
  | .ok _ => .done
  | .error _ => .failed

end Stage

end ApiBindings.Run
