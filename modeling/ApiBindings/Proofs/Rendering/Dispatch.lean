import ApiBindings.Rendering
import Mathlib.Data.List.Induction

/-!
# How far a dispatch goes

Dispatching a request uses up replies until one of them needs no other attempt or the retries are
spent, and what that last reply comes to is the result.  Whatever replies would follow do not
matter: no more of them are asked for.
-/

namespace ApiBindings

/-- What an attempt comes to if it gets a reply. -/
def RetryPolicy.outcomeOf (policy : RetryPolicy) (reply : Reply) : Rendered :=
  (reply.within policy.timeout).rendered

namespace Rendering

/-- A renderer that gives the replies of a list, one for each call, and then none. -/
def scripted : Renderer (List Reply) := fun _ replies =>
  (replies.headD .never, replies.tail)

/-- Given some replies, the dispatch of a request comes to a result with the last of them. -/
def EndsWith (policy : RetryPolicy) (request : Request) (replies : List Reply)
    (result : Rendered) : Prop :=
  ∃ effort, (dispatch scripted policy request).run { renderer := replies } = (result, effort) ∧
    effort.calls = replies.length

variable {policy : RetryPolicy} {request : Request}

/-! ## Attempts -/

/-- Attempts with some retries left, after what was spent so far. -/
def attempts (policy : RetryPolicy) (request : Request) (retries : Nat)
    (effort : Effort (List Reply)) : Rendered × Effort (List Reply) :=
  (attemptWithRetries (Effort.call scripted policy.timeout request)
    (Effort.rest policy.retryDelay) retries).run effort

/-- What is spent after one more call. -/
def afterCall (policy : RetryPolicy) (effort : Effort (List Reply)) : Effort (List Reply) where
  renderer := effort.renderer.tail
  calls := effort.calls + 1
  elapsed := effort.elapsed + ((effort.renderer.headD .never).within policy.timeout).duration

theorem attempts_zero (effort : Effort (List Reply)) :
    attempts policy request 0 effort =
      (policy.outcomeOf (effort.renderer.headD .never), afterCall policy effort) :=
  rfl

theorem attempts_succ (retries : Nat) (effort : Effort (List Reply)) :
    attempts policy request (retries + 1) effort =
      let result := policy.outcomeOf (effort.renderer.headD .never)
      let spent := afterCall policy effort
      if wantsRetry result then
        attempts policy request retries { spent with elapsed := spent.elapsed + policy.retryDelay }
      else (result, spent) := by
  let again : StateM (Effort (List Reply)) Rendered := do
    Effort.rest policy.retryDelay
    attemptWithRetries (Effort.call scripted policy.timeout request)
      (Effort.rest policy.retryDelay) retries
  let result := policy.outcomeOf (effort.renderer.headD .never)
  change StateT.run (if wantsRetry result then again else pure result) (afterCall policy effort) = _
  cases wants : wantsRetry result <;> simp only [result, wants] <;> rfl

/-- There is always at least one attempt. -/
theorem calls_lt_attempts (retries : Nat) (effort : Effort (List Reply)) :
    effort.calls < (attempts policy request retries effort).2.calls := by
  induction retries generalizing effort with
  | zero => exact Nat.lt_succ_self _
  | succ retries ih =>
      rw [attempts_succ]
      dsimp only
      split
      · have later := ih { afterCall policy effort with
          elapsed := (afterCall policy effort).elapsed + policy.retryDelay }
        exact Nat.lt_of_succ_lt later
      · exact Nat.lt_succ_self _

/-- Attempts use up replies that call for another one, as far as there are retries, and then one
that does not, or that comes to be the last. -/
structure Spends (policy : RetryPolicy) (retries : Nat) (earlier : List Reply) (last : Reply) :
    Prop where
  again : ∀ reply ∈ earlier, wantsRetry (policy.outcomeOf reply) = true
  budget : earlier.length ≤ retries
  final : wantsRetry (policy.outcomeOf last) = false ∨ earlier.length = retries

theorem Spends.attempts_eq {retries : Nat} {earlier : List Reply} {last : Reply}
    (spends : Spends policy retries earlier last) (request : Request) (calls elapsed : Nat) :
    ∃ effort, attempts policy request retries ⟨earlier ++ [last], calls, elapsed⟩ =
      (policy.outcomeOf last, effort) ∧ effort.calls = calls + (earlier ++ [last]).length := by
  induction earlier generalizing retries calls elapsed with
  | nil =>
      cases retries with
      | zero => exact ⟨_, attempts_zero _, rfl⟩
      | succ retries =>
          have final := spends.final.resolve_right (by simp)
          refine ⟨_, attempts_succ retries _ |>.trans (if_neg (by simp [final])), rfl⟩
  | cons reply earlier ih =>
      cases retries with
      | zero => exact absurd spends.budget (by simp)
      | succ retries =>
          have rest : Spends policy retries earlier last := {
            again := fun other member => spends.again other (List.mem_cons_of_mem _ member)
            budget := Nat.le_of_succ_le_succ spends.budget
            final := spends.final.imp id Nat.succ.inj }
          have wants := spends.again reply (List.mem_cons_self ..)
          obtain ⟨effort, spent, calls_eq⟩ := ih rest (calls + 1)
            (elapsed + (reply.within policy.timeout).duration + policy.retryDelay)
          refine ⟨effort, (attempts_succ retries _).trans ((if_pos wants).trans spent), ?_⟩
          rw [calls_eq]
          simp only [List.cons_append, List.length_cons]
          omega

theorem Spends.cons {retries : Nat} {reply last : Reply} {earlier : List Reply}
    (wants : wantsRetry (policy.outcomeOf reply) = true)
    (spends : Spends policy retries earlier last) :
    Spends policy (retries + 1) (reply :: earlier) last where
  again := List.forall_mem_cons.mpr ⟨wants, spends.again⟩
  budget := Nat.succ_le_succ spends.budget
  final := spends.final.imp id (congrArg Nat.succ)

theorem exists_spends_of_attempts {retries : Nat} {replies : List Reply} {calls elapsed : Nat}
    {result : Rendered} {effort : Effort (List Reply)}
    (spent : attempts policy request retries ⟨replies, calls, elapsed⟩ = (result, effort))
    (count : effort.calls = calls + replies.length) :
    ∃ earlier last, replies = earlier ++ [last] ∧ result = policy.outcomeOf last ∧
      Spends policy retries earlier last := by
  induction retries generalizing replies calls elapsed with
  | zero =>
      rw [attempts_zero] at spent
      cases spent
      obtain ⟨reply, rfl⟩ : ∃ reply, replies = [reply] := by
        simpa [afterCall, List.length_eq_one_iff] using count.symm
      exact ⟨[], reply, rfl, rfl, by simp, by simp, by simp⟩
  | succ retries ih =>
      have least := @calls_lt_attempts policy request (retries + 1) ⟨replies, calls, elapsed⟩
      rw [spent, count] at least
      cases replies with
      | nil => simp at least
      | cons reply rest =>
          rw [attempts_succ] at spent
          dsimp only at spent
          split at spent
          · rename_i wants
            have countRest : effort.calls = calls + 1 + rest.length := by
              rw [count, List.length_cons]
              omega
            obtain ⟨earlier, last, rfl, same, spends⟩ := ih spent countRest
            exact ⟨reply :: earlier, last, rfl, same, spends.cons wants⟩
          · rename_i final
            cases spent
            have none : rest = [] := by simpa [afterCall] using count
            subst none
            exact ⟨[], reply, rfl, rfl, by simp, by simp, .inl (by simpa using final)⟩

/-- A dispatch ends with the first reply that needs no other attempt, or with the last there is a
retry for. -/
theorem endsWith_iff {replies : List Reply} {result : Rendered} :
    EndsWith policy request replies result ↔ ∃ earlier last, replies = earlier ++ [last] ∧
      result = policy.outcomeOf last ∧ Spends policy policy.retries earlier last := by
  constructor
  · rintro ⟨effort, spent, count⟩
    exact exists_spends_of_attempts spent (by simpa using count)
  · rintro ⟨earlier, last, rfl, rfl, spends⟩
    obtain ⟨effort, spent, count⟩ := spends.attempts_eq request 0 0
    exact ⟨effort, spent, by simpa using count⟩

/-- A dispatch with no reply that calls for another attempt ends with its first reply. -/
theorem EndsWith.length_eq_one {policy : RetryPolicy} {request : Request} {replies : List Reply}
    {result : Rendered} (ends : EndsWith policy request replies result)
    (final : ∀ reply ∈ replies, wantsRetry (policy.outcomeOf reply) = false) :
    replies.length = 1 := by
  obtain ⟨earlier, last, rfl, -, spends⟩ := endsWith_iff.mp ends
  cases earlier with
  | nil => rfl
  | cons reply rest =>
      have wants := spends.again reply List.mem_cons_self
      rw [final reply (by simp)] at wants
      cases wants

/-- More replies than a dispatch ends with make no difference, because it does not ask for them. -/
theorem EndsWith.eq_of_append {replies more : List Reply} {result other : Rendered}
    (ends : EndsWith policy request replies result)
    (endsToo : EndsWith policy request (replies ++ more) other) : more = [] ∧ result = other := by
  obtain ⟨earlier, last, rfl, rfl, spends⟩ := endsWith_iff.mp ends
  obtain ⟨earlier', last', split, rfl, spendsToo⟩ := endsWith_iff.mp endsToo
  cases more using List.reverseRecOn with
  | nil =>
      rw [List.append_nil] at split
      obtain ⟨-, same⟩ := List.append_inj' split rfl
      cases same
      exact ⟨rfl, rfl⟩
  | append_singleton init final =>
      rw [← List.append_assoc] at split
      obtain ⟨front, -⟩ := List.append_inj' split rfl
      have member : last ∈ earlier' := by simp [← front]
      have longer : earlier.length < earlier'.length := by
        rw [← front]
        simp
      rcases spends.final with done | spent
      · rw [spendsToo.again last member] at done
        cases done
      · exact absurd spendsToo.budget (by omega)

end Rendering

end ApiBindings
