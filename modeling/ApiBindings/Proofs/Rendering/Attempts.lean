import ApiBindings.Proofs.Rendering.Dispatch
import Mathlib.Order.Nat

/-!
# What a dispatch does

Any renderer makes a sequence of outcomes of the calls for a request, whether or not they are made.
A dispatch takes the outcomes from the front up to the first that needs no other attempt, or up to
the budget, with a rest between each two attempts and none after the last.  Counting the attempts in
32 bits comes to the same for every budget that fits into 32 bits: the count never overflows.
-/

namespace ApiBindings.Rendering

variable {σ : Type}

/-! ## Outcomes -/

/-- The state of a renderer after some calls for a request. -/
def stateAfter (render : Renderer σ) (request : Request) (state : σ) : Nat → σ
  | 0 => state
  | calls + 1 => ((render request).run (stateAfter render request state calls)).2

/-- The reply to a call for a request after some calls for it. -/
def replyAfter (render : Renderer σ) (request : Request) (state : σ) (calls : Nat) : Reply :=
  ((render request).run (stateAfter render request state calls)).1

/-- What an attempt comes to after some calls for the same request. -/
def outcomeAfter (render : Renderer σ) (policy : RetryPolicy) (request : Request) (state : σ)
    (calls : Nat) : Rendered :=
  policy.outcomeOf (replyAfter render request state calls)

/-- What an attempt comes to, by the time that it may take. -/
inductive ComesTo (timeout : Nat) : Reply → Rendered → Prop where
  | answer {delay : Nat} (inTime : delay ≤ timeout) (rendered : Rendered) :
      ComesTo timeout (.answer delay rendered) rendered
  | late {delay : Nat} (late : timeout < delay) (rendered : Rendered) :
      ComesTo timeout (.answer delay rendered) (.error (.timeout timeout))
  | never : ComesTo timeout .never (.error (.timeout timeout))

theorem comesTo_outcomeOf (policy : RetryPolicy) (reply : Reply) :
    ComesTo policy.timeout reply (policy.outcomeOf reply) := by
  cases reply with
  | never => exact .never
  | answer delay rendered =>
      rw [RetryPolicy.outcomeOf, Reply.within]
      split
      · exact .answer ‹_› rendered
      · exact .late (Nat.lt_of_not_le ‹_›) rendered

/-! ## Attempts in a row -/

section Row

variable {τ : Type} (attempt : StateM τ Rendered) (rest : StateM τ Unit)

/-- The state in which the next attempt starts after some attempts, each with a rest behind it. -/
def rested (state : τ) : Nat → τ
  | 0 => state
  | attempts + 1 => (rest.run (attempt.run (rested state attempts)).2).2

theorem rested_succ (state : τ) (attempts : Nat) :
    rested attempt rest state (attempts + 1) =
      rested attempt rest (rest.run (attempt.run state).2).2 attempts := by
  induction attempts with
  | zero => rfl
  | succ attempts ih => exact congrArg (fun next => (rest.run (attempt.run next).2).2) ih

/-- The attempts that are the last of their row if they are made: they need no other one, or there
is no retry left. -/
def Ends (state : τ) (retries index : Nat) : Prop :=
  wantsRetry (attempt.run (rested attempt rest state index)).1 = false ∨ index = retries

theorem run_attemptWithRetries_succ (retries : Nat) (state : τ) :
    (attemptWithRetries attempt rest (retries + 1)).run state =
      if wantsRetry (attempt.run state).1 then
        (attemptWithRetries attempt rest retries).run (rest.run (attempt.run state).2).2
      else attempt.run state := by
  let again : StateM τ Rendered := do
    rest
    attemptWithRetries attempt rest retries
  change StateT.run (if wantsRetry (attempt.run state).1 then again
    else pure (attempt.run state).1) (attempt.run state).2 = _
  cases wantsRetry (attempt.run state).1 <;> rfl

/-- The attempts go on up to the first that is the last of its row. -/
theorem run_attemptWithRetries {state : τ} {retries index : Nat}
    (least : IsLeast {index | Ends attempt rest state retries index} index) :
    (attemptWithRetries attempt rest retries).run state =
      attempt.run (rested attempt rest state index) := by
  induction retries generalizing state index with
  | zero =>
      have first : index = 0 := Nat.le_zero.mp (least.2 (.inr rfl))
      rw [first]
      rfl
  | succ retries ih =>
      rw [run_attemptWithRetries_succ]
      cases wants : wantsRetry (attempt.run state).1 with
      | false =>
          have first : index = 0 := Nat.le_zero.mp (least.2 (.inl wants))
          rw [first]
          rfl
      | true =>
          cases index with
          | zero =>
              rcases least.1 with final | none
              · have settled : wantsRetry (attempt.run state).1 = false := final
                rw [wants] at settled
                cases settled
              · cases none
          | succ index =>
              rw [if_pos rfl, rested_succ]
              apply ih
              constructor
              · exact least.1.imp (fun final => by rwa [rested_succ] at final) Nat.succ.inj
              · intro other ends
                apply Nat.le_of_succ_le_succ
                apply least.2
                exact ends.imp (fun final => by rwa [rested_succ]) (congrArg Nat.succ)

end Row

/-! ## What is done -/

/-- What is done in the course of a dispatch. -/
inductive Act where
  | attempt (outcome : Rendered)
  | rest (duration : Nat)

/-- Whether nothing is asked of the renderer meanwhile. -/
def Act.isRest : Act → Bool
  | .attempt _ => false
  | .rest _ => true

/-- What was spent on a request, with all that was done. -/
structure Diary (σ : Type) where
  effort : Effort σ
  acts : List Act := []

/-- Call a renderer once, and write down what comes of it. -/
def Diary.call (render : Renderer σ) (limit : Nat) (request : Request) :
    StateM (Diary σ) Rendered := fun diary =>
  let (outcome, effort) := (Effort.call render limit request).run diary.effort
  (outcome, ⟨effort, diary.acts ++ [.attempt outcome]⟩)

/-- Let time pass, and write that down. -/
def Diary.rest (duration : Nat) : StateM (Diary σ) Unit := fun diary =>
  let (done, effort) := (Effort.rest duration).run diary.effort
  (done, ⟨effort, diary.acts ++ [.rest duration]⟩)

theorem Diary.run_call (render : Renderer σ) (limit : Nat) (request : Request) (diary : Diary σ) :
    (Diary.call render limit request).run diary =
      let called := (Effort.call render limit request).run diary.effort
      (called.1, ⟨called.2, diary.acts ++ [.attempt called.1]⟩) :=
  rfl

theorem Diary.run_rest (duration : Nat) (diary : Diary σ) :
    (Diary.rest duration).run diary =
      ((), ⟨((Effort.rest duration).run diary.effort).2, diary.acts ++ [.rest duration]⟩) :=
  rfl

/-- A dispatch that keeps a diary. -/
def recorded (render : Renderer σ) (policy : RetryPolicy) (request : Request) :
    StateM (Diary σ) Rendered :=
  attemptWithRetries (Diary.call render policy.timeout request) (Diary.rest policy.retryDelay)
    policy.retries

/-- Outcomes that need no other attempt. -/
inductive IsFinal : Rendered → Prop where
  | text (text : String) : IsFinal (.ok text)
  | lasting {error : RenderError} (lasting : error.isTransient = false) : IsFinal (.error error)

theorem isFinal_iff {outcome : Rendered} : IsFinal outcome ↔ wantsRetry outcome = false := by
  constructor
  · intro final
    cases final with
    | text text => rfl
    | lasting lasting => exact lasting
  · intro settled
    cases outcome with
    | ok text => exact .text text
    | error error => exact .lasting settled

/-- How a dispatch goes that is over with the attempt after `last` others. -/
structure Concludes (render : Renderer σ) (policy : RetryPolicy) (request : Request) (state : σ)
    (last : Nat) : Prop where
  /-- It is the first that needs no other attempt, or the last that the policy allows. -/
  least : IsLeast {index | IsFinal (outcomeAfter render policy request state index) ∨
    index + 1 = max 1 policy.maxAttempts} last
  result : ((dispatch render policy request).run { renderer := state }).1 =
    outcomeAfter render policy request state last
  attempts : ((dispatch render policy request).run { renderer := state }).2.calls = last + 1
  /-- The renderer is asked nothing more. -/
  renderer : ((dispatch render policy request).run { renderer := state }).2.renderer =
    stateAfter render request state (last + 1)
  /-- A diary changes nothing about a dispatch. -/
  faithful :
    ((recorded render policy request).run { effort := { renderer := state } }).map id Diary.effort =
      (dispatch render policy request).run { renderer := state }
  /-- There is a rest between each two attempts, and no other one. -/
  acts : ((recorded render policy request).run { effort := { renderer := state } }).2.acts =
    ((List.range (last + 1)).map fun index =>
      Act.attempt (outcomeAfter render policy request state index)).intersperse
        (.rest policy.retryDelay)
  rests : ((recorded render policy request).run
    { effort := { renderer := state } }).2.acts.countP Act.isRest = last

variable (render : Renderer σ) (policy : RetryPolicy) (request : Request) (state : σ)

/-- What was spent before an attempt of a dispatch. -/
def effortBefore (calls : Nat) : Effort σ :=
  rested (Effort.call render policy.timeout request) (Effort.rest policy.retryDelay)
    { renderer := state } calls

theorem effortBefore_succ (calls : Nat) :
    (effortBefore render policy request state (calls + 1)).renderer =
        ((render request).run (effortBefore render policy request state calls).renderer).2 ∧
      (effortBefore render policy request state (calls + 1)).calls =
        (effortBefore render policy request state calls).calls + 1 :=
  ⟨rfl, rfl⟩

theorem renderer_effortBefore (calls : Nat) :
    (effortBefore render policy request state calls).renderer =
      stateAfter render request state calls := by
  induction calls with
  | zero => rfl
  | succ calls ih => rw [(effortBefore_succ ..).1, ih, stateAfter]

theorem calls_effortBefore (calls : Nat) :
    (effortBefore render policy request state calls).calls = calls := by
  induction calls with
  | zero => rfl
  | succ calls ih => rw [(effortBefore_succ ..).2, ih]

/-- An attempt of a dispatch has the outcome that the renderer has for it, as nothing else was asked
of the renderer. -/
theorem run_call_effortBefore (calls : Nat) :
    ((Effort.call render policy.timeout request).run
      (effortBefore render policy request state calls)).1 =
        outcomeAfter render policy request state calls := by
  rw [outcomeAfter, replyAfter, ← renderer_effortBefore render policy]
  rfl

/-- The attempts of a diary come to what they come to without one, and all are written down. -/
theorem rested_diary (calls : Nat) :
    rested (Diary.call render policy.timeout request) (Diary.rest policy.retryDelay)
      { effort := { renderer := state } } calls =
        ⟨effortBefore render policy request state calls, (List.range calls).flatMap fun index =>
          [.attempt (outcomeAfter render policy request state index),
            .rest policy.retryDelay]⟩ := by
  induction calls with
  | zero => rfl
  | succ calls ih =>
      rw [rested, ih, Diary.run_call, Diary.run_rest, List.range_succ, List.flatMap_append,
        List.flatMap_singleton, ← run_call_effortBefore]
      simp only [List.append_assoc]
      rfl

/-- With one item behind others, there is a separator behind each of the others. -/
theorem intersperse_concat {α : Type} (separator last : α) (items : List α) :
    (items ++ [last]).intersperse separator =
      (items.flatMap fun item => [item, separator]) ++ [last] := by
  induction items with
  | nil => rfl
  | cons item rest ih =>
      cases rest with
      | nil => rfl
      | cons second others =>
          rw [List.cons_append, List.cons_append, List.intersperse_cons_cons,
            ← List.cons_append, ih, List.flatMap_cons]
          rfl

theorem countP_isRest (outcomes : Nat → Rendered) (duration calls : Nat) :
    ((List.range calls).flatMap fun index =>
      [Act.attempt (outcomes index), .rest duration]).countP Act.isRest = calls := by
  induction calls with
  | zero => rfl
  | succ calls ih =>
      rw [List.range_succ, List.flatMap_append, List.countP_append, ih]
      rfl

/-! ## The last attempt -/

section Last

variable {render policy request state} {last : Nat}

theorem ends_call_iff {index : Nat} :
    Ends (Effort.call render policy.timeout request) (Effort.rest policy.retryDelay)
        { renderer := state } policy.retries index ↔
      IsFinal (outcomeAfter render policy request state index) ∨
        index + 1 = max 1 policy.maxAttempts := by
  have budget : index = policy.retries ↔ index + 1 = max 1 policy.maxAttempts := by
    rw [RetryPolicy.retries]
    omega
  rw [isFinal_iff, ← budget, ← run_call_effortBefore]
  rfl

theorem ends_diary_iff {index : Nat} :
    Ends (Diary.call render policy.timeout request) (Diary.rest policy.retryDelay)
        { effort := { renderer := state } } policy.retries index ↔
      IsFinal (outcomeAfter render policy request state index) ∨
        index + 1 = max 1 policy.maxAttempts := by
  rw [← ends_call_iff, Ends, rested_diary]
  rfl

variable (least : IsLeast {index | IsFinal (outcomeAfter render policy request state index) ∨
  index + 1 = max 1 policy.maxAttempts} last)

include least

theorem run_dispatch :
    (dispatch render policy request).run { renderer := state } =
      (Effort.call render policy.timeout request).run
        (effortBefore render policy request state last) := by
  apply run_attemptWithRetries
  simpa only [ends_call_iff] using least

theorem fst_run_dispatch :
    ((dispatch render policy request).run { renderer := state }).1 =
      outcomeAfter render policy request state last := by
  rw [run_dispatch least, run_call_effortBefore]

theorem run_recorded :
    (recorded render policy request).run { effort := { renderer := state } } =
      (outcomeAfter render policy request state last,
        ⟨((dispatch render policy request).run { renderer := state }).2,
          ((List.range last).flatMap fun index =>
            [.attempt (outcomeAfter render policy request state index),
              .rest policy.retryDelay]) ++
            [.attempt (outcomeAfter render policy request state last)]⟩) := by
  have leastWritten : IsLeast {index |
      Ends (Diary.call render policy.timeout request) (Diary.rest policy.retryDelay)
        { effort := { renderer := state } } policy.retries index} last := by
    simpa only [ends_diary_iff] using least
  rw [recorded, run_attemptWithRetries _ _ leastWritten, rested_diary, Diary.run_call]
  simp only [run_dispatch least, run_call_effortBefore]

/-- A dispatch is over with the first attempt that its outcomes or its policy let be the last. -/
theorem concludes : Concludes render policy request state last where
  least := least
  result := fst_run_dispatch least
  attempts := by
    rw [run_dispatch least]
    exact congrArg (· + 1) (calls_effortBefore render policy request state last)
  renderer := by
    rw [run_dispatch least, stateAfter, ← renderer_effortBefore render policy]
    rfl
  faithful := by
    rw [run_recorded least]
    exact Prod.ext (fst_run_dispatch least).symm rfl
  acts := by
    rw [run_recorded least, List.range_succ, List.map_append, List.map_singleton,
      intersperse_concat, List.flatMap_map]
  rests := by
    rw [run_recorded least]
    simp only [List.countP_append, countP_isRest]
    rfl

end Last

theorem exists_concludes : ∃ last, Concludes render policy request state last := by
  classical
  exact ⟨_, concludes (Nat.isLeast_find ⟨policy.retries, ends_call_iff.mp (.inr rfl)⟩)⟩

/-! ## Counting in 32 bits -/

/-- Attempt something again and again, with the number of the attempt as a count of 32 bits. There
is no result if the count overflows. -/
def attemptCounted {m : Type → Type} [Monad m] (attempt : m Rendered) (rest : m Unit)
    (limit count : UInt32) : m (Option Rendered) := do
  let rendered ← attempt
  if wantsRetry rendered && count < limit then
    rest
    if fits : count.toNat + 1 < UInt32.size then attemptCounted attempt rest limit (count + 1)
    else return none
  else return some rendered
termination_by UInt32.size - count.toNat
decreasing_by
  rw [UInt32.toNat_add]
  have one : (1 : UInt32).toNat = 1 := rfl
  have size : UInt32.size = 2 ^ 32 := rfl
  omega

/-- A count that does not exceed its limit never overflows, and the retries that are left are the
steps to the limit. -/
theorem attemptCounted_eq {m : Type → Type} [Monad m] [LawfulMonad m] (attempt : m Rendered)
    (rest : m Unit) {limit count : UInt32} (within : count ≤ limit) :
    attemptCounted attempt rest limit count =
      some <$> attemptWithRetries attempt rest (limit.toNat - count.toNat) := by
  rw [UInt32.le_iff_toNat_le] at within
  generalize left : limit.toNat - count.toNat = retries
  induction retries generalizing count with
  | zero =>
      have spent : ¬ count < limit := by
        rw [UInt32.lt_iff_toNat_lt]
        omega
      rw [attemptCounted, attemptWithRetries, map_eq_pure_bind]
      simp only [spent, decide_false, Bool.and_false, Bool.false_eq_true, if_false]
  | succ retries ih =>
      have more : count < limit := by
        rw [UInt32.lt_iff_toNat_lt]
        omega
      have fits : count.toNat + 1 < UInt32.size := Nat.lt_of_le_of_lt (by omega) limit.toNat_lt
      have next : (count + 1).toNat = count.toNat + 1 := by
        rw [UInt32.toNat_add]
        exact Nat.mod_eq_of_lt fits
      have again : attemptCounted attempt rest limit (count + 1) =
          some <$> attemptWithRetries attempt rest retries :=
        ih (by omega) (by omega)
      rw [attemptCounted, attemptWithRetries, map_bind]
      congr 1
      funext rendered
      cases wantsRetry rendered with
      | false => simp
      | true => simp [more, fits, again]

/-- A dispatch is over with the first attempt that needs no other one, or with the last that its
policy allows, whatever comes of the attempts; and to count them in 32 bits comes to the same. -/
theorem dispatch_concludes (render : Renderer σ) (limit : UInt32) (timeout retryDelay : Nat)
    (request : Request) (state : σ) :
    let policy : RetryPolicy := ⟨limit.toNat, timeout, retryDelay⟩
    (∀ calls, ComesTo timeout (replyAfter render request state calls)
      (outcomeAfter render policy request state calls)) ∧
    (∃ last, Concludes render policy request state last) ∧
    attemptCounted (Effort.call render timeout request) (Effort.rest retryDelay) (max limit 1) 1 =
      some <$> dispatch render policy request := by
  intro policy
  refine ⟨fun calls => comesTo_outcomeOf policy _, exists_concludes render policy request state, ?_⟩
  have retries : (max limit 1).toNat - (1 : UInt32).toNat = policy.retries := by
    rw [UInt32.toNat_max]
    change max limit.toNat 1 - 1 = limit.toNat - 1
    omega
  rw [attemptCounted_eq, retries]
  · rfl
  · rw [UInt32.le_iff_toNat_le, UInt32.toNat_max]
    exact Nat.le_max_right _ _

end ApiBindings.Rendering
