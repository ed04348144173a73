import ApiBindings.Proofs.Plan.Ownership
import ApiBindings.Proofs.Run.Settlement

/-!
# Generators

A generator runs again and again.  A run fails as a whole only if there is no graph; otherwise its
report has one outcome for each model, and the outcome of a model depends on its own entry and on
what its own requests are answered with, whatever becomes of the others and whatever happened in
runs before.
-/

namespace ApiBindings.Run

open Rendering (EndsWith)

variable {σ : Type}

/-! ## Runs of a generator -/

/-- A generator between two runs: its stage, and the state that its tools work on. -/
structure Generator (σ : Type) where
  stage : Stage := .idle
  state : σ

/-- What may come of looking for a graph. -/
abbrev Analysis (σ : Type) :=
  StateM σ (Except Source.LoadError Source.Graph)

/-- A run of a generator, with the generator before it and after it. -/
structure Ran (σ : Type) where
  before : Generator σ
  result : Except Source.LoadError Summary
  after : Generator σ

/-- Let a generator run once. -/
def Generator.run (tools : Tools σ) (slots : Nat) (context : Binding.Context)
    (analyze : Analysis σ) (generator : Generator σ) : Ran σ :=
  let run : StateM σ (Except Source.LoadError Summary) := do
    ofLoaded (ofPlan tools slots) context (← analyze)
  let done := run.run generator.state
  { before := generator, result := done.1, after := ⟨.after done.1, done.2⟩ }

/-- Let a generator run several times. -/
def Generator.runs (tools : Tools σ) (slots : Nat) (context : Binding.Context) :
    List (Analysis σ) → Generator σ → List (Ran σ)
  | [], _ => []
  | analyze :: rest, generator =>
      let ran := generator.run tools slots context analyze
      ran :: ran.after.runs tools slots context rest

/-! ## What runs do -/

/-- The reply to a render call. -/
def Event.reply? : Event → Option Reply
  | .rendered _ _ reply => some reply
  | .emitted _ _ _ => none

/-- Events that are answered from a script of replies and by a writer. -/
structure AnsweredBy (script : Nat → Reply) (write : String → Except EmitError Path)
    (events : List Event) : Prop where
  replies : ∀ (index : Nat) reply, (events.filterMap Event.reply?)[index]? = some reply →
    reply = script index
  results : ∀ id text result, .emitted id text result ∈ events → result = write text

/-- Two conversations that get the same answers, as far as each of them asks. -/
def SameAnswers (first second : Conversation) : Prop :=
  ∃ script write, AnsweredBy script write first.events ∧ AnsweredBy script write second.events

/-- What a run does: without a graph nothing is asked of the tools, with one its plan is settled. -/
structure Performs (tools : Tools σ) (slots : Nat) (context : Binding.Context)
    (analyze : Analysis σ) (ran : Ran σ) : Prop where
  /-- The fault of the analysis is that of the run, and the tools stay as the analysis left
  them. -/
  failed : ∀ error, (analyze.run ran.before.state).1 = .error error →
    ran.result = .error error ∧ ran.after.stage = .failed ∧
      ran.after.state = (analyze.run ran.before.state).2
  performed : ∀ graph, (analyze.run ran.before.state).1 = .ok graph →
    ∃ summary, ran.result = .ok summary ∧ ran.after.stage = .done ∧
      ∃ conversations log, Transcript tools slots (Plan.ofGraph context graph)
        (analyze.run ran.before.state).2 conversations log summary ran.after.state
  /-- There is one outcome for each model, in the order of the models. -/
  complete : ∀ graph summary, (analyze.run ran.before.state).1 = .ok graph →
    ran.result = .ok summary →
      summary.report.outcomes.map (·.id) = graph.models.map ModelId.ofModel ∧
      summary.report.outcomes.length = graph.size ∧
      summary.report.failures.length ≤ graph.size
  /-- A model fails at being bound exactly if its entry has no request, and for that reason. -/
  unbound : ∀ graph summary, (analyze.run ran.before.state).1 = .ok graph →
    ran.result = .ok summary →
      List.Forall₂ (fun (entry : Plan.Entry) (outcome : Outcome) => ∀ error,
        outcome.result = .error (.binding error) ↔ entry.request = .error error)
        (Plan.ofGraph context graph) summary.report.outcomes

/-- Runs that keep to themselves what becomes of each model. -/
structure Isolates (tools : Tools σ) (slots : Nat) (context : Binding.Context) : Prop where
  /-- Runs that follow each other do what each of them would do alone, whatever the generator was
  through before. -/
  performs : ∀ (analyses : List (Analysis σ)) (generator : Generator σ),
    List.Forall₂ (Performs tools slots context) analyses
      (generator.runs tools slots context analyses)
  /-- An entry has one outcome in every two runs that have it and answer it alike, whatever else
  there is in the two plans, and whatever tools and however many slots there are. -/
  independent : ∀ {τ : Type} (others : Tools τ), others.policy = tools.policy →
    ∀ {slots' : Nat} {plan plan' : List Plan.Entry} {before after : σ} {before' after' : τ}
      {conversations conversations' : List Conversation} {log log' : List Event}
      {summary summary' : Summary},
    Transcript tools slots plan before conversations log summary after →
    Transcript others slots' plan' before' conversations' log' summary' after' →
    ∀ {index position : Nat} {conversation conversation' : Conversation},
    conversations[index]? = some conversation → conversations'[position]? = some conversation' →
    conversation.entry = conversation'.entry → SameAnswers conversation conversation' →
      summary.report.outcomes[index]? = summary'.report.outcomes[position]?

/-! ## Single entries -/

theorem filterMap_reply?_calls (id : ModelId) (request : Request) (replies : List Reply) :
    (calls id request replies).filterMap Event.reply? = replies := by
  induction replies with
  | nil => rfl
  | cons reply rest ih => simpa [calls, Event.reply?] using ih

/-- Of two lists of replies from one script, the longer one goes on after the other. -/
theorem exists_append_of_script {script : Nat → Reply} {first second : List Reply}
    (own : ∀ (index : Nat) reply, first[index]? = some reply → reply = script index)
    (ownToo : ∀ (index : Nat) reply, second[index]? = some reply → reply = script index)
    (shorter : first.length ≤ second.length) : ∃ more, second = first ++ more := by
  refine ⟨second.drop first.length, ?_⟩
  have start : first = second.take first.length := by
    apply List.ext_getElem (by simp [shorter])
    intro index inside insideToo
    rw [List.getElem_take, own index _ (List.getElem?_eq_getElem inside)]
    exact (ownToo index _ (List.getElem?_eq_getElem (by omega))).symm
  rw [start, List.length_take, Nat.min_eq_left shorter, List.take_append_drop]

/-- Dispatches that get their replies from one script end alike. -/
theorem endsWith_unique {policy : RetryPolicy} {request : Request} {script : Nat → Reply}
    {first second : List Reply} {result other : Rendered}
    (own : ∀ (index : Nat) reply, first[index]? = some reply → reply = script index)
    (ownToo : ∀ (index : Nat) reply, second[index]? = some reply → reply = script index)
    (ends : EndsWith policy request first result)
    (endsToo : EndsWith policy request second other) : result = other := by
  rcases Nat.le_total first.length second.length with shorter | longer
  · obtain ⟨more, rfl⟩ := exists_append_of_script own ownToo shorter
    exact (ends.eq_of_append endsToo).2
  · obtain ⟨more, rfl⟩ := exists_append_of_script ownToo own longer
    exact (endsToo.eq_of_append ends).2.symm

/-- The outcome for a rendered request, or for one that is not. -/
def concluded (id : ModelId) (write : String → Except EmitError Path) : Rendered → Outcome
  | .error error => ⟨id, .error (.rendering error)⟩
  | .ok text => ⟨id, (write text).mapError .emission⟩

/-- With its answers known, the outcome of an entry with a request is that of its dispatch. -/
theorem Settles.eq_concluded {policy : RetryPolicy} {id : ModelId} {request : Request}
    {events : List Event} {outcome : Outcome} {script : Nat → Reply}
    {write : String → Except EmitError Path}
    (settles : Settles policy ⟨⟨id, .ok request⟩, events⟩ outcome)
    (answered : AnsweredBy script write events) :
    ∃ result, EndsWith policy request (events.filterMap Event.reply?) result ∧
      outcome = concluded id write result := by
  cases settles with
  | unrendered id ends =>
      rw [filterMap_reply?_calls]
      exact ⟨_, ends, rfl⟩
  | @emitted id request replies text ends result =>
      refine ⟨.ok text, ?_, ?_⟩
      · have silent : [Event.emitted id text result].filterMap Event.reply? = [] := rfl
        rwa [List.filterMap_append, filterMap_reply?_calls, silent, List.append_nil]
      · rw [answered.results id text result (by simp), concluded]

theorem Settles.eq_of_sameAnswers {policy : RetryPolicy} {first second : Conversation}
    {outcome other : Outcome} (settles : Settles policy first outcome)
    (settlesToo : Settles policy second other) (entry : first.entry = second.entry)
    (same : SameAnswers first second) : outcome = other := by
  obtain ⟨script, write, answered, answeredToo⟩ := same
  obtain ⟨⟨id, error | request⟩, events⟩ := first
  · cases second
    cases entry
    cases settles
    cases settlesToo
    rfl
  · cases second
    cases entry
    obtain ⟨result, ends, rfl⟩ := settles.eq_concluded answered
    obtain ⟨result', endsToo, rfl⟩ := settlesToo.eq_concluded answeredToo
    rw [endsWith_unique answered.replies answeredToo.replies ends endsToo]

theorem Settles.unbound_iff {policy : RetryPolicy} {conversation : Conversation} {outcome : Outcome}
    (settles : Settles policy conversation outcome) (error : BindError) :
    outcome.result = .error (.binding error) ↔ conversation.entry.request = .error error := by
  cases settles with
  | unbound id other => simp
  | unrendered id ends => simp
  | emitted id ends result => cases result <;> simp [Except.mapError]

theorem Settles.id_eq {policy : RetryPolicy} {conversation : Conversation} {outcome : Outcome}
    (settles : Settles policy conversation outcome) : outcome.id = conversation.entry.id := by
  cases settles <;> rfl

/-! ## The work of a run -/

variable {tools : Tools σ} {slots : Nat} {context : Binding.Context} {plan : List Plan.Entry}
  {before after : σ} {conversations : List Conversation} {log : List Event} {summary : Summary}

theorem Transcript.map_id
    (transcript : Transcript tools slots plan before conversations log summary after) :
    summary.report.outcomes.map (·.id) = plan.map (·.id) := by
  rw [← transcript.entries, List.map_map, ← List.forall₂_eq_eq_eq, List.forall₂_map_left_iff,
    List.forall₂_map_right_iff]
  exact (transcript.outcomes.imp fun _ _ settles => settles.id_eq).flip

theorem Transcript.unbound_iff
    (transcript : Transcript tools slots plan before conversations log summary after) :
    List.Forall₂ (fun (entry : Plan.Entry) (outcome : Outcome) => ∀ error,
      outcome.result = .error (.binding error) ↔ entry.request = .error error)
      plan summary.report.outcomes := by
  rw [← transcript.entries, List.forall₂_map_left_iff]
  exact transcript.outcomes.imp fun _ _ settles => settles.unbound_iff

/-- The outcome of an entry is what its own conversation comes to. -/
theorem Transcript.getElem?_outcomes
    (transcript : Transcript tools slots plan before conversations log summary after)
    {index : Nat} {conversation : Conversation}
    (there : conversations[index]? = some conversation) :
    ∃ outcome, summary.report.outcomes[index]? = some outcome ∧
      Settles tools.policy conversation outcome := by
  obtain ⟨inside, rfl⟩ := List.getElem?_eq_some_iff.mp there
  have insideToo : index < summary.report.outcomes.length := by
    rwa [← transcript.outcomes.length_eq]
  exact ⟨_, List.getElem?_eq_getElem insideToo, transcript.outcomes.get inside insideToo⟩

theorem length_failures_le (report : Report) :
    report.failures.length ≤ report.outcomes.length :=
  List.length_filterMap_le _ _

theorem Generator.run_of_error {analyze : Analysis σ} {generator : Generator σ}
    {error : Source.LoadError} {state : σ}
    (analysed : analyze.run generator.state = (.error error, state)) :
    generator.run tools slots context analyze = ⟨generator, .error error, ⟨.failed, state⟩⟩ := by
  simp only [Generator.run, StateT.run_bind, analysed]
  rfl

theorem Generator.run_of_ok {analyze : Analysis σ} {generator : Generator σ}
    {graph : Source.Graph} {state : σ}
    (analysed : analyze.run generator.state = (.ok graph, state)) :
    let performed := (ofPlan tools slots (Plan.ofGraph context graph)).run state
    generator.run tools slots context analyze =
      ⟨generator, .ok performed.1, ⟨.done, performed.2⟩⟩ := by
  simp only [Generator.run, StateT.run_bind, analysed]
  rfl

theorem Generator.performs_run (positive : 0 < slots) (analyze : Analysis σ)
    (generator : Generator σ) :
    Performs tools slots context analyze (generator.run tools slots context analyze) := by
  rcases analysed : analyze.run generator.state with ⟨error | graph, state⟩
  · rw [run_of_error analysed]
    constructor <;> simp [analysed]
  · rw [run_of_ok analysed]
    obtain ⟨conversations, log, transcript⟩ :=
      exists_transcript tools positive (Plan.ofGraph context graph) state
    have ids := transcript.map_id.trans (Plan.ofGraph_map_id context graph)
    have length := congrArg List.length ids
    rw [List.length_map, List.length_map, graph.length_models] at length
    constructor <;> rw [analysed]
    case failed => rintro error ⟨⟩
    case performed =>
      rintro _ ⟨⟩
      exact ⟨_, rfl, rfl, conversations, log, transcript⟩
    case complete =>
      rintro _ _ ⟨⟩ ⟨⟩
      exact ⟨ids, length, length ▸ length_failures_le _⟩
    case unbound =>
      rintro _ _ ⟨⟩ ⟨⟩
      exact transcript.unbound_iff

theorem Generator.performs_runs (positive : 0 < slots) (analyses : List (Analysis σ))
    (generator : Generator σ) :
    List.Forall₂ (Performs tools slots context) analyses
      (generator.runs tools slots context analyses) := by
  induction analyses generalizing generator with
  | nil => exact .nil
  | cons analyze rest ih => exact .cons (performs_run positive analyze generator) (ih _)

/-- Whatever becomes of some models, the others have the outcomes that they have without them, in
every run of a generator. -/
theorem Generator.isolates (tools : Tools σ) (concurrency : Nat) (context : Binding.Context) :
    Isolates tools (Options.slots { retry := tools.policy, concurrency }) context where
  performs := performs_runs (Options.slots_pos _)
  independent := by
    intro τ others policy slots' plan plan' before after before' after' conversations conversations'
      log log' summary summary' transcript transcript' index position conversation conversation'
      there thereToo entry same
    obtain ⟨outcome, found, settles⟩ := transcript.getElem?_outcomes there
    obtain ⟨other, foundToo, settlesToo⟩ := transcript'.getElem?_outcomes thereToo
    rw [policy] at settlesToo
    rw [found, foundToo, settles.eq_of_sameAnswers settlesToo entry same]

end ApiBindings.Run
