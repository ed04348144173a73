import ApiBindings.Run.Task

/-!
# Schedules

Which task goes on when.  Tasks start in the order of the plan.  Only so many may be started and not
yet delivered, and they are delivered in the order of the plan too, so that a slow first task keeps
those behind it from being followed by others.
-/

namespace ApiBindings.Run

/-- The state of a run: what is delivered, the tasks that are started, and the entries that wait. -/
structure Schedule (σ : Type) where
  world : World σ
  delivered : List Outcome := []
  started : List Task := []
  waiting : List Plan.Entry

variable {σ : Type} (tools : Tools σ)

/-- Let the first task with a given turn go on. -/
def proceedFirst (turn : Nat) : List Task → World σ → List Task × World σ
  | [], world => ([], world)
  | task :: rest, world =>
      if task.turn? = some turn then
        let next := task.proceed tools world
        (next.1 :: rest, next.2)
      else
        let next := proceedFirst turn rest world
        (task :: next.1, next.2)

namespace Schedule

/-- The next turn of all tasks. -/
def turn? (schedule : Schedule σ) : Option Nat :=
  (schedule.started.filterMap Task.turn?).min?

/-- Move on to the next turn, if there is one. -/
def advance (schedule : Schedule σ) : Option (Schedule σ) :=
  schedule.turn?.map fun turn =>
    let world := { schedule.world with clock := turnTime turn }
    let next := proceedFirst tools turn schedule.started world
    { schedule with started := next.1, world := next.2 }

/-- Start the first entry that waits. -/
def startNext (schedule : Schedule σ) (entry : Plan.Entry) (waiting : List Plan.Entry) :
    Schedule σ :=
  let next := Task.start tools entry schedule.world
  { schedule with world := next.2, started := schedule.started ++ [next.1], waiting }

/-- Whether a turn is due by now. -/
def isDue (schedule : Schedule σ) : Bool :=
  schedule.turn?.any (turnTime · ≤ schedule.world.clock)

/-- One step of a run with a number of slots. What is due comes first, then the delivery of the
first task, then the start of another; only when there is none of these does time pass. -/
def step (slots : Nat) (schedule : Schedule σ) : Option (Schedule σ) :=
  if schedule.isDue then schedule.advance tools
  else
    match schedule.started, schedule.waiting with
    | ⟨id, .finished result⟩ :: started, _ =>
        some { schedule with delivered := schedule.delivered ++ [⟨id, result⟩], started }
    | started, entry :: waiting =>
        if started.length < slots then some (schedule.startNext tools entry waiting)
        else schedule.advance tools
    | _, [] => schedule.advance tools

/-- A bound on the steps that are left. -/
def weight (schedule : Schedule σ) : Nat :=
  totalWeight schedule.started + schedule.waiting.length * (2 * tools.policy.retries + 3)

end Schedule

theorem totalWeight_proceedFirst_lt (turn : Nat) (tasks : List Task) (world : World σ)
    (found : turn ∈ tasks.filterMap Task.turn?) :
    totalWeight (proceedFirst tools turn tasks world).1 < totalWeight tasks := by
  induction tasks with
  | nil => simp at found
  | cons task rest ih =>
      by_cases now : task.turn? = some turn
      · have nearer := task.weight_proceed_lt tools world (by simp [now])
        simp only [proceedFirst, now, if_true, totalWeight]
        omega
      · have later : turn ∈ rest.filterMap Task.turn? := by
          cases own : task.turn? with
          | none => simpa [List.filterMap_cons, own] using found
          | some other =>
              have apart : turn ≠ other := fun same => now (by rw [own, same])
              simpa [List.filterMap_cons, own, apart] using found
        have nearer := ih later
        simp only [proceedFirst, now, if_false, totalWeight]
        omega

namespace Schedule

theorem weight_advance_lt {schedule next : Schedule σ}
    (found : schedule.advance tools = some next) :
    next.weight tools < schedule.weight tools := by
  simp only [advance, Option.map_eq_some_iff] at found
  obtain ⟨turn, soonest, rfl⟩ := found
  exact Nat.add_lt_add_right
    (totalWeight_proceedFirst_lt tools turn schedule.started _ (List.min?_mem soonest)) _

theorem weight_step_lt {slots : Nat} {schedule next : Schedule σ}
    (found : schedule.step tools slots = some next) :
    next.weight tools < schedule.weight tools := by
  unfold step at found
  split at found
  · exact weight_advance_lt tools found
  · split at found
    · next started waiting id result rest first =>
      simp only [Option.some.injEq] at found
      subst found
      simp [weight, first, totalWeight, Phase.weight]
    · next entry waiting rest first =>
      split at found
      · simp only [Option.some.injEq] at found
        subst found
        have nearer := Task.weight_start_lt tools entry schedule.world
        simp [weight, startNext, rest, totalWeight_append, totalWeight, Nat.add_mul]
        omega
      · exact weight_advance_lt tools found
    · exact weight_advance_lt tools found

/-- Take steps until there is none left. -/
def complete (slots : Nat) (schedule : Schedule σ) : Schedule σ :=
  match _found : schedule.step tools slots with
  | none => schedule
  | some next => next.complete slots
termination_by schedule.weight tools
decreasing_by exact weight_step_lt tools _found

end Schedule

end ApiBindings.Run
