import ApiBindings.Run

/-!
# Completed runs

A run takes steps until none is left.  What every step keeps holds at its end, and with a slot to
work in, a run only ends once every entry of its plan is delivered.
-/

namespace ApiBindings.Run

variable {σ : Type} (tools : Tools σ)

theorem Options.slots_pos (options : Options) : 0 < options.slots :=
  Nat.le_max_right _ _

namespace Schedule

theorem complete_of_step_eq_none {slots : Nat} {schedule : Schedule σ}
    (last : schedule.step tools slots = none) : schedule.complete tools slots = schedule := by
  rw [complete]
  split
  · rfl
  · rename_i found
    rw [last] at found
    cases found

theorem complete_of_step_eq_some {slots : Nat} {schedule next : Schedule σ}
    (found : schedule.step tools slots = some next) :
    schedule.complete tools slots = next.complete tools slots := by
  rw [complete]
  split
  · rename_i last
    rw [found] at last
    cases last
  · rename_i other foundOther
    rw [found] at foundOther
    cases foundOther
    rfl

/-- What holds of a schedule and is kept by every step holds of the completed schedule. -/
theorem complete_induction {property : Schedule σ → Prop} {slots : Nat}
    (keeps : ∀ schedule next, property schedule → schedule.step tools slots = some next →
      property next)
    {schedule : Schedule σ} (initially : property schedule) :
    property (schedule.complete tools slots) := by
  induction schedule using complete.induct tools slots with
  | case1 schedule last => rwa [complete_of_step_eq_none tools last]
  | case2 schedule next found ih =>
      rw [complete_of_step_eq_some tools found]
      exact ih (keeps schedule next initially found)

theorem step_complete (slots : Nat) (schedule : Schedule σ) :
    (schedule.complete tools slots).step tools slots = none := by
  induction schedule using complete.induct tools slots with
  | case1 schedule last => rwa [complete_of_step_eq_none tools last]
  | case2 schedule next found ih => rwa [complete_of_step_eq_some tools found]

/-! ## Single steps -/

/-- What a step may do: deliver the first task, start an entry in a free slot, or let one of the
started tasks go on at some time. -/
inductive Moves (slots : Nat) (schedule : Schedule σ) : Schedule σ → Prop where
  | deliver {id : ModelId} {result : Except ModelFailure Path} {rest : List Task}
      (first : schedule.started = ⟨id, .finished result⟩ :: rest) :
      Moves slots schedule
        { schedule with delivered := schedule.delivered ++ [⟨id, result⟩], started := rest }
  | start {entry : Plan.Entry} {rest : List Plan.Entry} (next : schedule.waiting = entry :: rest)
      (room : schedule.started.length < slots) :
      Moves slots schedule (schedule.startNext tools entry rest)
  | proceed {before after : List Task} {task : Task}
      (split : schedule.started = before ++ task :: after) (clock : Nat) :
      Moves slots schedule
        { schedule with
          started := before ++ (task.proceed tools { schedule.world with clock }).1 :: after
          world := (task.proceed tools { schedule.world with clock }).2 }

/-- If it is some task's turn, then one task goes on and the others stay as they are. -/
theorem exists_of_proceedFirst {turn : Nat} {tasks : List Task}
    (found : turn ∈ tasks.filterMap Task.turn?) (world : World σ) :
    ∃ before task after, tasks = before ++ task :: after ∧
      proceedFirst tools turn tasks world =
        (before ++ (task.proceed tools world).1 :: after, (task.proceed tools world).2) := by
  induction tasks with
  | nil => simp at found
  | cons task rest ih =>
      by_cases now : task.turn? = some turn
      · exact ⟨[], task, rest, rfl, by simp [proceedFirst, now]⟩
      · obtain ⟨other, member, turns⟩ := List.mem_filterMap.mp found
        have later : other ∈ rest := by
          rcases List.mem_cons.mp member with rfl | later
          · exact absurd turns now
          · exact later
        obtain ⟨before, chosen, after, rfl, goes⟩ :=
          ih (List.mem_filterMap.mpr ⟨other, later, turns⟩)
        exact ⟨task :: before, chosen, after, rfl, by simp [proceedFirst, now, goes]⟩

theorem moves_of_advance {slots : Nat} {schedule next : Schedule σ}
    (found : schedule.advance tools = some next) : Moves tools slots schedule next := by
  simp only [advance, Option.map_eq_some_iff] at found
  obtain ⟨turn, soonest, rfl⟩ := found
  obtain ⟨before, task, after, split, goes⟩ := exists_of_proceedFirst tools
    (List.min?_mem soonest) { schedule.world with clock := turnTime turn }
  rw [goes]
  exact .proceed split (turnTime turn)

theorem moves_of_step {slots : Nat} {schedule next : Schedule σ}
    (found : schedule.step tools slots = some next) : Moves tools slots schedule next := by
  unfold step at found
  split at found
  · exact moves_of_advance tools found
  · split at found
    · rename_i first
      cases found
      exact .deliver first
    · rename_i waiting _
      split at found
      · rename_i room
        cases found
        exact .start waiting room
      · exact moves_of_advance tools found
    · exact moves_of_advance tools found

/-! ## When no step is left -/

theorem turn?_of_advance_eq_none {schedule : Schedule σ} (none : schedule.advance tools = none) :
    schedule.turn? = .none := by
  simpa [advance] using none

/-- Without a next turn, every task is finished. -/
theorem finished_of_turn?_eq_none {schedule : Schedule σ} (none : schedule.turn? = none)
    {task : Task} (started : task ∈ schedule.started) :
    ∃ result, task.phase = .finished result := by
  rw [turn?, List.min?_eq_none_iff, List.filterMap_eq_nil_iff] at none
  have still := none task started
  cases phase : task.phase with
  | calling request retries rendered ends => simp [Task.turn?, phase] at still
  | resting request retries ends => simp [Task.turn?, phase] at still
  | finished result => exact ⟨result, rfl⟩

/-- A schedule that does not go on has neither tasks that are started nor entries that wait. -/
theorem started_waiting_of_step_eq_none {slots : Nat} (positive : 0 < slots)
    {schedule : Schedule σ} (last : schedule.step tools slots = none) :
    schedule.started = [] ∧ schedule.waiting = [] := by
  have still : schedule.turn? = none := by
    unfold step at last
    split at last
    · exact turn?_of_advance_eq_none tools last
    · split at last
      · cases last
      · split at last
        · cases last
        · exact turn?_of_advance_eq_none tools last
      · exact turn?_of_advance_eq_none tools last
  cases started : schedule.started with
  | nil =>
      cases waiting : schedule.waiting with
      | nil => exact ⟨rfl, rfl⟩
      | cons entry rest =>
          simp [step, isDue, still, started, waiting, positive] at last
  | cons task rest =>
      have member : task ∈ schedule.started := by simp [started]
      obtain ⟨result, phase⟩ := finished_of_turn?_eq_none still member
      obtain ⟨id, current⟩ := task
      simp only at phase
      subst phase
      simp [step, isDue, still, started] at last

end Schedule

end ApiBindings.Run
