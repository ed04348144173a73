import ApiBindings.Proofs.FileTree.Soundness
import ApiBindings.Proofs.Plan.Announcement
import ApiBindings.Run.Report

/-!
# One model after the other

What the work on the entries of a plan comes to on a file tree, if the text for every request is
known beforehand.  A run that renders in the process works on one model after the other, however
many slots it has: every call ends at the time it starts, so that its model is done before the next
one is begun.
-/

namespace ApiBindings.Run

open FileTree (Grows)

/-- The work on one entry, as a function of the tree. -/
def worked (layout : Layout) (render : Request → Rendered) (entry : Plan.Entry) (tree : FileTree) :
    Outcome × FileTree :=
  StateT.run (m := Id) (workOn layout (fun request => pure (render request)) entry) tree

/-- The work on several entries in their order, as a function of the tree. -/
def workedAll (layout : Layout) (render : Request → Rendered) :
    List Plan.Entry → FileTree → List Outcome × FileTree
  | [], tree => ([], tree)
  | entry :: rest, tree =>
      let first := worked layout render entry tree
      let others := workedAll layout render rest first.2
      (first.1 :: others.1, others.2)

variable {layout : Layout} {render : Request → Rendered} {tree : FileTree} {entry : Plan.Entry}

theorem run_mapM_workOn (layout : Layout) (render : Request → Rendered) (plan : List Plan.Entry)
    (tree : FileTree) :
    StateT.run (m := Id) (plan.mapM (workOn layout fun request => pure (render request))) tree =
      workedAll layout render plan tree := by
  induction plan generalizing tree with
  | nil => rfl
  | cons entry rest ih =>
      rw [List.mapM_cons, FileTree.run_bind, FileTree.run_bind, workedAll, ← worked, ih]
      rfl

/-! ## Single entries -/

/-- Nothing is done for an entry without a request. -/
theorem worked_of_unbound {id : ModelId} {error : BindError} :
    worked layout render ⟨id, .error error⟩ tree = (⟨id, .error (.binding error)⟩, tree) := rfl

/-- Nothing is written for a request without a text. -/
theorem worked_of_unrendered {id : ModelId} {request : Request} {error : RenderError}
    (failed : render request = .error error) :
    worked layout render ⟨id, .ok request⟩ tree = (⟨id, .error (.rendering error)⟩, tree) := by
  simp only [worked, workOn, pure_bind, failed]
  rfl

theorem worked_of_rendered {id : ModelId} {request : Request} {text : String}
    (rendered : render request = .ok text) :
    worked layout render ⟨id, .ok request⟩ tree =
      (⟨id, (Plan.emitOn layout id text tree).1.mapError .emission⟩,
        (Plan.emitOn layout id text tree).2) := by
  simp only [worked, workOn, pure_bind, rendered]
  rw [FileTree.run_bind, ← Plan.emitOn]
  rcases Plan.emitOn layout id text tree with ⟨error | path, after⟩ <;> rfl

/-- The text of a request that has one goes into the file the request announces. -/
theorem worked_of_announced {id : ModelId} {request : Request} {text : String}
    (announced : layout.filePath? id.name id.category = some request.path)
    (rendered : render request = .ok text) :
    worked layout render ⟨id, .ok request⟩ tree =
      (⟨id, (tree.writtenInto request.path text).1.mapError .emission⟩,
        (tree.writtenInto request.path text).2) := by
  rw [worked_of_rendered rendered, Plan.emitOn_eq_writtenInto announced]

/-! ## Announced files -/

/-- A place of the file that an entry has a request for. -/
def IsOutput (entry : Plan.Entry) (place : Location) : Prop :=
  ∃ request, entry.request = .ok request ∧ place.head? = request.path.fileName?

/-- The request of an entry announces the file that is written for it. -/
def Announced (layout : Layout) (entry : Plan.Entry) : Prop :=
  ∀ request, entry.request = .ok request → Plan.Announces layout entry.id request

/-- The work on an entry changes no file but its own. -/
theorem grows_worked (render : Request → Rendered) (announced : Announced layout entry)
    (tree : FileTree) :
    Grows (IsOutput entry) tree (worked layout render entry tree).2 := by
  obtain ⟨id, error | request⟩ := entry
  · exact .refl tree
  · cases rendered : render request with
    | error error =>
        rw [worked_of_unrendered rendered]
        exact .refl tree
    | ok text =>
        have announces := announced request rfl
        obtain ⟨stem, -, ends, fileName⟩ := announces.endsIn
        rw [worked_of_announced announces.path rendered]
        apply (FileTree.grows_writtenInto ends tree text).mono
        intro place head
        exact ⟨request, rfl, by rw [fileName, head]⟩

theorem isSound_worked (render : Request → Rendered) (announced : Announced layout entry)
    (sound : tree.IsSound) :
    (worked layout render entry tree).2.IsSound := by
  obtain ⟨id, error | request⟩ := entry
  · exact sound
  · cases rendered : render request with
    | error error =>
        rw [worked_of_unrendered rendered]
        exact sound
    | ok text =>
        have announces := announced request rfl
        obtain ⟨stem, -, ends, -⟩ := announces.endsIn
        rw [worked_of_announced announces.path rendered]
        exact sound.writtenInto ends text

theorem announced_ofGraph (context : Binding.Context) (graph : Source.Graph) :
    ∀ entry ∈ Plan.ofGraph context graph, Announced context.layout entry :=
  fun _ member _ kept => Plan.announces_of_mem context member kept

/-! ## Runs that render in the process -/

/-- The text that is rendered in the process. -/
def printed (request : Request) : Rendered :=
  .ok request.declaration.text

variable {σ : Type}

section InProcess

variable {policy : RetryPolicy} {slots : Nat} (positive : 0 < slots)

/-- A call that renders in the process ends at once. -/
theorem start_inProcess {id : ModelId} {request : Request} (world : World (Site σ)) :
    Task.start (Site.tools Renderer.inProcess layout policy) ⟨id, .ok request⟩ world =
      (⟨id, .calling request policy.retries (printed request) world.clock⟩,
        { world with calls := ⟨id, world.clock, world.clock⟩ :: world.calls }) := by
  have answered : StateT.run (m := Id)
      ((Site.tools Renderer.inProcess layout policy).render request) world.state =
      (.answer 0 (printed request), world.state) := rfl
  simp only [Task.start, startCall, answered]
  rfl

include positive in
/-- From a schedule with nothing started, an entry without a request is delivered at once. -/
theorem complete_cons_unbound (id : ModelId) (error : BindError) (plan : List Plan.Entry)
    (world : World (Site σ)) (delivered : List Outcome) :
    Schedule.complete (Site.tools Renderer.inProcess layout policy) slots
        { world, delivered, waiting := ⟨id, .error error⟩ :: plan } =
      Schedule.complete (Site.tools Renderer.inProcess layout policy) slots
        { world, delivered := delivered ++ [⟨id, .error (.binding error)⟩], waiting := plan } := by
  have started : Schedule.step (Site.tools Renderer.inProcess layout policy) slots
      { world, delivered, waiting := ⟨id, .error error⟩ :: plan } = some
      { world, delivered, started := [⟨id, .finished (.error (.binding error))⟩],
        waiting := plan } := by
    simp [Schedule.step, Schedule.isDue, Schedule.turn?, positive, Schedule.startNext, Task.start]
  rw [Schedule.complete_of_step_eq_some _ started, Schedule.complete_of_step_eq_some]
  rfl

/-- A call that ended is followed by the writing of its text. -/
theorem proceed_inProcess {id : ModelId} {request : Request} {retries ends : Nat}
    (world : World (Site σ)) :
    Task.proceed (Site.tools Renderer.inProcess layout policy)
        ⟨id, .calling request retries (printed request) ends⟩ world =
      (⟨id, .finished ((Plan.emitOn layout id request.declaration.text world.state.files).1.mapError
        .emission)⟩, { world with
          state := ⟨world.state.renderer,
            (Plan.emitOn layout id request.declaration.text world.state.files).2⟩ }) := rfl

include positive in
/-- From a schedule with nothing started, a request is rendered, written and delivered before
anything else is done. -/
theorem complete_cons_rendered (id : ModelId) (request : Request) (plan : List Plan.Entry)
    (world : World (Site σ)) (delivered : List Outcome) :
    let emitted := Plan.emitOn layout id request.declaration.text world.state.files
    Schedule.complete (Site.tools Renderer.inProcess layout policy) slots
        { world, delivered, waiting := ⟨id, .ok request⟩ :: plan } =
      Schedule.complete (Site.tools Renderer.inProcess layout policy) slots
        { world :=
            { state := ⟨world.state.renderer, emitted.2⟩
              clock := world.clock
              calls := ⟨id, world.clock, world.clock⟩ :: world.calls }
          delivered := delivered ++ [⟨id, emitted.1.mapError .emission⟩]
          waiting := plan } := by
  intro emitted
  have now : turnTime (2 * world.clock) = world.clock := by
    simp [turnTime]
  let called : World (Site σ) :=
    { world with calls := ⟨id, world.clock, world.clock⟩ :: world.calls }
  let calling : Schedule (Site σ) :=
    { world := called
      delivered
      started := [⟨id, .calling request policy.retries (printed request) world.clock⟩]
      waiting := plan }
  let finished : Schedule (Site σ) :=
    { world := { called with state := ⟨world.state.renderer, emitted.2⟩ }
      delivered
      started := [⟨id, .finished (emitted.1.mapError .emission)⟩]
      waiting := plan }
  have started : Schedule.step (Site.tools Renderer.inProcess layout policy) slots
      { world, delivered, waiting := ⟨id, .ok request⟩ :: plan } = some calling := by
    simp [Schedule.step, Schedule.isDue, Schedule.turn?, positive, Schedule.startNext,
      start_inProcess, calling, called]
  have ended : calling.step (Site.tools Renderer.inProcess layout policy) slots =
      some finished := by
    simp [Schedule.step, Schedule.isDue, Schedule.turn?, Schedule.advance, Task.turn?, now,
      proceedFirst, proceed_inProcess, calling, finished, called, emitted]
  rw [Schedule.complete_of_step_eq_some _ started, Schedule.complete_of_step_eq_some _ ended,
    Schedule.complete_of_step_eq_some]
  rfl

include positive in
/-- From a schedule with nothing started, the entries that wait are worked on in their order. -/
theorem complete_inProcess (plan : List Plan.Entry) (world : World (Site σ))
    (delivered : List Outcome) :
    let final := Schedule.complete (Site.tools Renderer.inProcess layout policy) slots
      { world, delivered, waiting := plan }
    final.delivered = delivered ++ (workedAll layout printed plan world.state.files).1 ∧
      final.world.state =
        ⟨world.state.renderer, (workedAll layout printed plan world.state.files).2⟩ := by
  intro final
  induction plan generalizing world delivered with
  | nil =>
      have last : final = { world, delivered, waiting := [] } := by
        apply Schedule.complete_of_step_eq_none
        simp [Schedule.step, Schedule.isDue, Schedule.turn?, Schedule.advance]
      rw [last]
      exact ⟨(List.append_nil delivered).symm, rfl⟩
  | cons entry rest ih =>
      obtain ⟨id, error | request⟩ := entry
      · obtain ⟨outcomes, state⟩ := ih world (delivered ++ [⟨id, .error (.binding error)⟩])
        simp only [final, complete_cons_unbound positive, outcomes, state, workedAll,
          worked_of_unbound, List.append_assoc, List.singleton_append, and_self]
      · have done : worked layout printed ⟨id, .ok request⟩ world.state.files = _ :=
          worked_of_rendered rfl
        have further := ih { world with
          state := ⟨world.state.renderer,
            (Plan.emitOn layout id request.declaration.text world.state.files).2⟩
          calls := ⟨id, world.clock, world.clock⟩ :: world.calls }
          (delivered ++ [⟨id, (Plan.emitOn layout id request.declaration.text
            world.state.files).1.mapError .emission⟩])
        simp only [final, complete_cons_rendered positive, further.1, further.2, workedAll,
          done, List.append_assoc, List.singleton_append, and_self]

end InProcess

/-- A run that renders in the process comes to the work on its entries in their order. -/
theorem perform_inProcess (layout : Layout) (options : Options) (plan : List Plan.Entry)
    (site : Site σ) :
    let done := (Site.perform Renderer.inProcess layout options plan).run site
    done.1.report.outcomes = (workedAll layout printed plan site.files).1 ∧
      done.2 = ⟨site.renderer, (workedAll layout printed plan site.files).2⟩ :=
  complete_inProcess options.slots_pos plan { state := site } []

end ApiBindings.Run
