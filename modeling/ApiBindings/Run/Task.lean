import ApiBindings.Rendering
import ApiBindings.Run.Report

/-!
# Tasks of a run

The work on one model: render calls with rests between them, then the writing of its file.  Each
task knows its own next turn; the schedule decides whose turn it is.
-/

namespace ApiBindings.Run

/-- What a run has its requests rendered and its texts written with. -/
structure Tools (σ : Type) where
  render : Renderer σ
  emit : ModelId → String → StateM σ (Except EmitError Path)
  policy : RetryPolicy := {}

/-- A render call with the times of its start and its end. -/
structure Call where
  id : ModelId
  starts : Nat
  ends : Nat
  deriving Repr, DecidableEq

/-- The largest number of calls that run at once, for calls with the latest first. A call counts
from its start; at its end it no longer counts. -/
def peak : List Call → Nat
  | [] => 0
  | call :: earlier => max (1 + earlier.countP (call.starts < ·.ends)) (peak earlier)

/-- The time in milliseconds, what the tools work on, and the calls so far, the latest first. -/
structure World (σ : Type) where
  state : σ
  clock : Nat := 0
  calls : List Call := []

/-- Where a task stands. -/
inductive Phase where
  /-- A call that ends at some time. -/
  | calling (request : Request) (retries : Nat) (rendered : Rendered) (ends : Nat)
  /-- A rest before the next call, with the retries that are left after that call. -/
  | resting (request : Request) (retries : Nat) (ends : Nat)
  | finished (result : Except ModelFailure Path)

/-- The work on one model. -/
structure Task where
  id : ModelId
  phase : Phase

/-- When a task goes on, as a place in the order of all turns: by time, and at one time calls end
before others start. -/
def Task.turn? (task : Task) : Option Nat :=
  match task.phase with
  | .calling _ _ _ ends => some (2 * ends)
  | .resting _ _ ends => some (2 * ends + 1)
  | .finished _ => none

/-- The time of a turn. -/
def turnTime (turn : Nat) : Nat :=
  turn / 2

variable {σ : Type} (tools : Tools σ)

/-- Start a render call. -/
def startCall (id : ModelId) (request : Request) (retries : Nat) (world : World σ) :
    Phase × World σ :=
  let replied := (tools.render request).run world.state
  let attempt := replied.1.within tools.policy.timeout
  let ends := world.clock + attempt.duration
  (.calling request retries attempt.rendered ends,
    { world with state := replied.2, calls := ⟨id, world.clock, ends⟩ :: world.calls })

/-- End a task that has its text by writing the file. -/
def writeFile (id : ModelId) (text : String) (world : World σ) : Phase × World σ :=
  let written := (tools.emit id text).run world.state
  (.finished (written.1.mapError .emission), { world with state := written.2 })

/-- End a render call. -/
def endCall (id : ModelId) (request : Request) (rendered : Rendered) (retries : Nat)
    (world : World σ) : Phase × World σ :=
  match rendered with
  | .ok text => writeFile tools id text world
  | .error error =>
      match retries with
      | 0 => (.finished (.error (.rendering error)), world)
      | retries + 1 =>
          if error.isTransient then
            (.resting request retries (world.clock + tools.policy.retryDelay), world)
          else (.finished (.error (.rendering error)), world)

/-- What a task does when it is its turn. -/
def Task.proceed (task : Task) (world : World σ) : Task × World σ :=
  let next :=
    match task.phase with
    | .calling request retries rendered _ => endCall tools task.id request rendered retries world
    | .resting request retries _ => startCall tools task.id request retries world
    | .finished result => (.finished result, world)
  (⟨task.id, next.1⟩, next.2)

/-- Start the work on an entry of a plan. -/
def Task.start (entry : Plan.Entry) (world : World σ) : Task × World σ :=
  let first :=
    match entry.request with
    | .ok request => startCall tools entry.id request tools.policy.retries world
    | .error error => (.finished (.error (.binding error)), world)
  (⟨entry.id, first.1⟩, first.2)

/-- A bound on the turns that a phase still takes, plus one. -/
def Phase.weight : Phase → Nat
  | .calling _ retries _ _ => 2 * retries + 2
  | .resting _ retries _ => 2 * retries + 3
  | .finished _ => 1

/-- A bound on the turns that all of some tasks still take together. -/
def totalWeight : List Task → Nat
  | [] => 0
  | task :: rest => task.phase.weight + totalWeight rest

theorem totalWeight_append (first second : List Task) :
    totalWeight (first ++ second) = totalWeight first + totalWeight second := by
  induction first with
  | nil => simp [totalWeight]
  | cons task rest ih => simp only [List.cons_append, totalWeight, ih]; omega

theorem weight_endCall_lt (id : ModelId) (request : Request) (rendered : Rendered) (retries : Nat)
    (world : World σ) :
    (endCall tools id request rendered retries world).1.weight < 2 * retries + 2 := by
  cases rendered with
  | ok text => simp [endCall, writeFile, Phase.weight]
  | error error =>
      cases retries with
      | zero => simp [endCall, Phase.weight]
      | succ retries =>
          cases again : error.isTransient with
          | true => simp only [endCall, again, if_true, Phase.weight]; omega
          | false => simp [endCall, Phase.weight, again]

/-- A task comes nearer to its end whenever it is its turn. -/
theorem Task.weight_proceed_lt (task : Task) (world : World σ) (busy : task.turn?.isSome) :
    (task.proceed tools world).1.phase.weight < task.phase.weight := by
  obtain ⟨id, phase⟩ := task
  cases phase with
  | calling request retries rendered ends =>
      exact weight_endCall_lt tools id request rendered retries world
  | resting request retries ends => simp [proceed, startCall, Phase.weight]
  | finished result => simp [turn?] at busy

theorem Task.weight_start_lt (entry : Plan.Entry) (world : World σ) :
    (Task.start tools entry world).1.phase.weight < 2 * tools.policy.retries + 3 := by
  cases found : entry.request <;> simp [start, found, startCall, Phase.weight]

end ApiBindings.Run
