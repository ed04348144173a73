import ApiBindings.Proofs.Rendering.Dispatch
import ApiBindings.Proofs.Run.Completion
import ApiBindings.Proofs.Run.Trace
import Mathlib.Data.List.Forall2

/-!
# How the entries of a plan are settled

Every entry of a plan is settled on its own, whatever the tools do and however many slots there are:
without a request at once, otherwise by dispatching the request, and with a text by one emission.
What a run asks of its tools are these conversations, woven together as the schedule has it.  With
one slot they follow each other.
-/

namespace ApiBindings.Run

open Rendering (EndsWith Spends endsWith_iff)

/-- An entry of a plan with what is asked of the tools for it. -/
structure Conversation where
  entry : Plan.Entry
  events : List Event

/-- Render calls for a request. -/
def calls (id : ModelId) (request : Request) (replies : List Reply) : List Event :=
  replies.map (.rendered id request)

@[simp] theorem calls_append (id : ModelId) (request : Request) (replies more : List Reply) :
    calls id request (replies ++ more) = calls id request replies ++ calls id request more :=
  List.map_append

/-- The outcome that a conversation comes to. -/
inductive Settles (policy : RetryPolicy) : Conversation → Outcome → Prop where
  | unbound (id : ModelId) (error : BindError) :
      Settles policy ⟨⟨id, .error error⟩, []⟩ ⟨id, .error (.binding error)⟩
  | unrendered (id : ModelId) {request : Request} {replies : List Reply} {error : RenderError}
      (ends : EndsWith policy request replies (.error error)) :
      Settles policy ⟨⟨id, .ok request⟩, calls id request replies⟩ ⟨id, .error (.rendering error)⟩
  | emitted (id : ModelId) {request : Request} {replies : List Reply} {text : String}
      (ends : EndsWith policy request replies (.ok text)) (result : Except EmitError Path) :
      Settles policy ⟨⟨id, .ok request⟩, calls id request replies ++ [.emitted id text result]⟩
        ⟨id, result.mapError .emission⟩

/-- How far a task is in the conversation for its entry. -/
inductive Serves (policy : RetryPolicy) : Conversation → Task → Prop where
  | calling (id : ModelId) (request : Request) {earlier : List Reply} (last : Reply) {retries : Nat}
      (again : ∀ reply ∈ earlier, wantsRetry (policy.outcomeOf reply) = true)
      (left : earlier.length + retries = policy.retries) (ends : Nat) :
      Serves policy ⟨⟨id, .ok request⟩, calls id request (earlier ++ [last])⟩
        ⟨id, .calling request retries (policy.outcomeOf last) ends⟩
  | resting (id : ModelId) (request : Request) {replies : List Reply} {retries : Nat}
      (again : ∀ reply ∈ replies, wantsRetry (policy.outcomeOf reply) = true)
      (left : replies.length + retries = policy.retries) (ends : Nat) :
      Serves policy ⟨⟨id, .ok request⟩, calls id request replies⟩
        ⟨id, .resting request retries ends⟩
  | finished {conversation : Conversation} {id : ModelId} {result : Except ModelFailure Path}
      (settles : Settles policy conversation ⟨id, result⟩) :
      Serves policy conversation ⟨id, .finished result⟩

variable {σ : Type} {tools : Tools σ}

/-- A world that some events lead to from another one, with a record of the render calls. -/
structure Leads (tools : Tools σ) (world : World σ) (events : List Event) (next : World σ) :
    Prop where
  trace : Trace tools world.state events next.state
  record : next.calls.map (·.id) =
    (events.filterMap Event.rendered?).reverse ++ world.calls.map (·.id)

theorem Leads.nil (world : World σ) : Leads tools world [] world := ⟨.nil _, rfl⟩

theorem Leads.append {world between next : World σ} {first second : List Event}
    (leads : Leads tools world first between) (leadsToo : Leads tools between second next) :
    Leads tools world (first ++ second) next where
  trace := leads.trace.append leadsToo.trace
  record := by
    rw [leadsToo.record, leads.record, List.filterMap_append, List.reverse_append,
      List.append_assoc]

/-! ## Tasks -/

/-- A task that does not ask for anything. -/
theorem Serves.silent {policy : RetryPolicy} {conversation : Conversation} {task : Task}
    (serves : Serves policy conversation task) (world : World σ) :
    ∃ new, Serves policy ⟨conversation.entry, conversation.events ++ new⟩ task ∧
      Leads tools world new world := by
  refine ⟨[], ?_, .nil world⟩
  rwa [List.append_nil]

theorem serves_startCall {id : ModelId} {request : Request} {replies : List Reply} {retries : Nat}
    (again : ∀ reply ∈ replies, wantsRetry (tools.policy.outcomeOf reply) = true)
    (left : replies.length + retries = tools.policy.retries) (world : World σ) :
    ∃ new, Serves tools.policy ⟨⟨id, .ok request⟩, calls id request replies ++ new⟩
        ⟨id, (startCall tools id request retries world).1⟩ ∧
      Leads tools world new (startCall tools id request retries world).2 := by
  rcases replied : (tools.render request).run world.state with ⟨reply, state⟩
  refine ⟨calls id request [reply], ?_, ?_, ?_⟩
  · rw [← calls_append, startCall, replied]
    exact .calling id request reply again left _
  · rw [startCall, replied]
    exact .rendered replied (.nil state)
  · rfl

theorem serves_endCall {id : ModelId} {request : Request} {earlier : List Reply} {last : Reply}
    {retries : Nat} (again : ∀ reply ∈ earlier, wantsRetry (tools.policy.outcomeOf reply) = true)
    (left : earlier.length + retries = tools.policy.retries) (world : World σ) :
    ∃ new, Serves tools.policy ⟨⟨id, .ok request⟩, calls id request (earlier ++ [last]) ++ new⟩
        ⟨id, (endCall tools id request (tools.policy.outcomeOf last) retries world).1⟩ ∧
      Leads tools world new
        (endCall tools id request (tools.policy.outcomeOf last) retries world).2 := by
  have ends : ∀ {result : Rendered}, tools.policy.outcomeOf last = result →
      wantsRetry result = false ∨ retries = 0 →
        EndsWith tools.policy request (earlier ++ [last]) result := by
    rintro result rfl final
    exact endsWith_iff.mpr ⟨earlier, last, rfl, rfl, again, by omega,
      final.imp (fun done => done) fun spent => by omega⟩
  cases outcome : tools.policy.outcomeOf last with
  | ok text =>
      rcases written : (tools.emit id text).run world.state with ⟨result, state⟩
      refine ⟨[.emitted id text result], ?_, ?_, ?_⟩
      · rw [endCall, writeFile, written]
        exact .finished (.emitted id (ends outcome (.inl rfl)) result)
      · rw [endCall, writeFile, written]
        exact .emitted written (.nil state)
      · rfl
  | error error =>
      cases retries with
      | zero =>
          exact (Serves.finished (.unrendered id (ends outcome (.inr rfl)))).silent world
      | succ retries =>
          cases transient : error.isTransient with
          | true =>
              have wants : wantsRetry (tools.policy.outcomeOf last) = true := by
                rw [outcome, wantsRetry, transient]
              have all : ∀ reply ∈ earlier ++ [last],
                  wantsRetry (tools.policy.outcomeOf reply) = true := by
                simpa [or_imp, forall_and] using ⟨again, wants⟩
              have fewer : (earlier ++ [last]).length + retries = tools.policy.retries := by
                rw [List.length_append, List.length_singleton]
                omega
              simp only [endCall, transient, if_true]
              exact (Serves.resting id request all fewer _).silent world
          | false =>
              simp only [endCall, transient, Bool.false_eq_true, if_false]
              exact (Serves.finished (.unrendered id (ends outcome (.inl transient)))).silent world

theorem Serves.proceed {conversation : Conversation} {task : Task}
    (serves : Serves tools.policy conversation task) (world : World σ) :
    ∃ new, Serves tools.policy ⟨conversation.entry, conversation.events ++ new⟩
        (task.proceed tools world).1 ∧
      Leads tools world new (task.proceed tools world).2 := by
  cases serves with
  | calling id request last again left ends => exact serves_endCall again left world
  | resting id request again left ends => exact serves_startCall again left world
  | finished settles => exact (Serves.finished settles).silent world

theorem serves_start (tools : Tools σ) (entry : Plan.Entry) (world : World σ) :
    ∃ new, Serves tools.policy ⟨entry, new⟩ (Task.start tools entry world).1 ∧
      Leads tools world new (Task.start tools entry world).2 := by
  obtain ⟨id, error | request⟩ := entry
  · exact ⟨[], .finished (.unbound id error), .nil world⟩
  · have again : ∀ reply ∈ ([] : List Reply), wantsRetry (tools.policy.outcomeOf reply) = true := by
      simp
    exact serves_startCall again (Nat.zero_add _) world

/-! ## Schedules -/

/-- Conversations woven into a log. With one slot there is one at a time. -/
structure Woven (slots : Nat) (conversations : List (List Event)) (log : List Event) : Prop where
  interleaves : Interleaves conversations log
  sequential : slots = 1 → log = conversations.flatten

/-- A schedule that works on a plan from some world on. What is delivered, started and waiting are
the outcomes, tasks and entries for consecutive stretches of the plan. -/
structure Progress (tools : Tools σ) (slots : Nat) (plan : List Plan.Entry) (start : World σ)
    (done busy : List Conversation) (log : List Event) (schedule : Schedule σ) : Prop where
  entries : plan = (done ++ busy).map (·.entry) ++ schedule.waiting
  delivered : List.Forall₂ (Settles tools.policy) done schedule.delivered
  started : List.Forall₂ (Serves tools.policy) busy schedule.started
  room : schedule.started.length ≤ slots
  woven : Woven slots ((done ++ busy).map (·.events)) log
  leads : Leads tools start log schedule.world

variable {slots : Nat} {plan : List Plan.Entry} {start : World σ} {done busy : List Conversation}
  {log : List Event} {schedule : Schedule σ}

theorem Progress.deliver (progress : Progress tools slots plan start done busy log schedule)
    {id : ModelId} {result : Except ModelFailure Path} {rest : List Task}
    (first : schedule.started = ⟨id, .finished result⟩ :: rest) :
    ∃ conversation others, busy = conversation :: others ∧
      Progress tools slots plan start (done ++ [conversation]) others log
        { schedule with delivered := schedule.delivered ++ [⟨id, result⟩], started := rest } := by
  have started := progress.started
  rw [first] at started
  cases started with
  | @cons conversation _ others _ serves following =>
      cases serves with
      | finished settles =>
          refine ⟨conversation, others, rfl, ?_, ?_, following, ?_, ?_, progress.leads⟩
          · simpa using progress.entries
          · exact List.rel_append progress.delivered (.cons settles .nil)
          · have room := progress.room
            rw [first, List.length_cons] at room
            exact Nat.le_of_succ_le room
          · simpa using progress.woven

theorem Progress.startNext (progress : Progress tools slots plan start done busy log schedule)
    {entry : Plan.Entry} {rest : List Plan.Entry} (next : schedule.waiting = entry :: rest)
    (room : schedule.started.length < slots) :
    ∃ new, Progress tools slots plan start done (busy ++ [⟨entry, new⟩]) (log ++ new)
      (schedule.startNext tools entry rest) := by
  obtain ⟨new, serves, leads⟩ := serves_start tools entry schedule.world
  refine ⟨new, ?_, progress.delivered, ?_, ?_, ⟨?_, ?_⟩, progress.leads.append leads⟩
  · simpa [Schedule.startNext, next] using progress.entries
  · exact List.rel_append progress.started (.cons serves .nil)
  · rw [Schedule.startNext, List.length_append]
    exact room
  · simpa using progress.woven.interleaves.start.extend new
  · intro single
    simp [progress.woven.sequential single]

theorem Woven.extend {before after : List (List Event)} {conversation : List Event}
    (woven : Woven slots (before ++ conversation :: after) log)
    (single : slots = 1 → after = []) (new : List Event) :
    Woven slots (before ++ (conversation ++ new) :: after) (log ++ new) where
  interleaves := woven.interleaves.extend new
  sequential := by
    intro one
    simp [woven.sequential one, single one]

/-- Lists that correspond, with one of them cut at an element. -/
theorem exists_of_forall₂_append {α β : Type} {relation : α → β → Prop} {items : List α}
    {before after : List β} {element : β}
    (related : List.Forall₂ relation items (before ++ element :: after)) :
    ∃ front item back, items = front ++ item :: back ∧ List.Forall₂ relation front before ∧
      relation item element ∧ List.Forall₂ relation back after := by
  induction before generalizing items with
  | nil =>
      cases related with
      | cons here rest => exact ⟨[], _, _, rfl, .nil, here, rest⟩
  | cons first before ih =>
      cases related with
      | cons here rest =>
          obtain ⟨front, item, back, rfl, fronts, middle, backs⟩ := ih rest
          exact ⟨_ :: front, item, back, rfl, .cons here fronts, middle, backs⟩

theorem Progress.proceed (progress : Progress tools slots plan start done busy log schedule)
    {before after : List Task} {task : Task} (split : schedule.started = before ++ task :: after)
    (clock : Nat) :
    ∃ others new, Progress tools slots plan start done others (log ++ new)
        { schedule with
          started := before ++ (task.proceed tools { schedule.world with clock }).1 :: after
          world := (task.proceed tools { schedule.world with clock }).2 } := by
  have started := progress.started
  rw [split] at started
  obtain ⟨front, conversation, back, rfl, fronts, serves, backs⟩ :=
    exists_of_forall₂_append started
  obtain ⟨new, servesOn, leads⟩ := serves.proceed { schedule.world with clock }
  have room := progress.room
  rw [split] at room
  refine ⟨front ++ ⟨conversation.entry, conversation.events ++ new⟩ :: back, new, ?_,
    progress.delivered, List.rel_append fronts (.cons servesOn backs), ?_, ?_,
    progress.leads.append ⟨leads.trace, leads.record⟩⟩
  · simpa using progress.entries
  · simpa using room
  · have woven := progress.woven
    simp only [List.map_append, List.map_cons, ← List.append_assoc] at woven ⊢
    refine woven.extend ?_ new
    rintro rfl
    have alone : after = [] := by
      rw [← List.length_eq_zero_iff]
      simp only [List.length_append, List.length_cons] at room
      omega
    rw [alone, List.forall₂_nil_right_iff] at backs
    rw [backs, List.map_nil]

/-- Every step goes on with the conversations. -/
theorem Progress.step (progress : Progress tools slots plan start done busy log schedule)
    {next : Schedule σ} (found : schedule.step tools slots = some next) :
    ∃ done busy log, Progress tools slots plan start done busy log next := by
  cases Schedule.moves_of_step tools found with
  | deliver first =>
      obtain ⟨conversation, others, -, further⟩ := progress.deliver first
      exact ⟨_, _, _, further⟩
  | start waiting room =>
      obtain ⟨new, further⟩ := progress.startNext waiting room
      exact ⟨_, _, _, further⟩
  | proceed split clock =>
      obtain ⟨others, new, further⟩ := progress.proceed split clock
      exact ⟨_, _, _, further⟩

/-! ## Runs -/

/-- What was asked of the tools in the run of a plan, entry by entry, and what came of it. -/
structure Transcript (tools : Tools σ) (slots : Nat) (plan : List Plan.Entry) (before : σ)
    (conversations : List Conversation) (log : List Event) (summary : Summary) (after : σ) :
    Prop where
  entries : conversations.map (·.entry) = plan
  outcomes : List.Forall₂ (Settles tools.policy) conversations summary.report.outcomes
  woven : Woven slots (conversations.map (·.events)) log
  trace : Trace tools before log after
  record : summary.calls.reverse.map (·.id) = log.filterMap Event.rendered?

/-- Every run of a plan has a transcript. -/
theorem exists_transcript (tools : Tools σ) {slots : Nat} (positive : 0 < slots)
    (plan : List Plan.Entry) (state : σ) :
    ∃ conversations log, Transcript tools slots plan state conversations log
      ((ofPlan tools slots plan).run state).1 ((ofPlan tools slots plan).run state).2 := by
  have initially : Progress tools slots plan { state } [] [] [] (Schedule.initial plan state) := {
    entries := rfl
    delivered := .nil
    started := .nil
    room := Nat.zero_le _
    woven := ⟨.silent (by simp), fun _ => rfl⟩
    leads := .nil _ }
  have keeps : ∀ schedule next,
      (∃ done busy log, Progress tools slots plan { state } done busy log schedule) →
        schedule.step tools slots = some next →
          ∃ done busy log, Progress tools slots plan { state } done busy log next :=
    fun _ _ ⟨_, _, _, progress⟩ found => progress.step found
  obtain ⟨done, busy, log, completed⟩ :=
    Schedule.complete_induction tools keeps ⟨[], [], [], initially⟩
  obtain ⟨started, waiting⟩ := Schedule.started_waiting_of_step_eq_none tools positive
    (Schedule.step_complete tools slots (Schedule.initial plan state))
  have working := completed.started
  rw [started, List.forall₂_nil_right_iff] at working
  subst working
  have entries := completed.entries
  have woven := completed.woven
  have record := completed.leads.record
  rw [waiting, List.append_nil, List.append_nil] at entries
  rw [List.append_nil] at woven
  refine ⟨done, log, entries.symm, completed.delivered, woven, completed.leads.trace, ?_⟩
  rw [List.map_reverse]
  exact List.reverse_eq_iff.mpr (record.trans (List.append_nil _))

end ApiBindings.Run
