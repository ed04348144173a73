import ApiBindings.Proofs.Rendering.Dispatch
import ApiBindings.Rendering
import Mathlib.Order.Bounds.Defs

/-!
# Answers of the rendering service

A server gives its answers one after the other, whatever it is asked.  A request uses up some of
them in a row: it stops at the first that is no transient failure, and gives up with its budget.
-/

namespace ApiBindings.Rendering.Service

/-- A server that answers posts in the order they come, each within a limit, and that is gone when
it has no answer left. -/
structure Server (limit : Nat) where
  answers : List Http.Answer
  delay : Nat → Nat
  inTime : ∀ index, delay index ≤ limit

namespace Server

variable {limit : Nat} (server : Server limit)

/-- What becomes of the post with an index. -/
def exchange (index : Nat) : Http.Exchange :=
  match server.answers[index]? with
  | some answer => .answered (server.delay index) answer
  | none => .dropped

/-- Send a post to the server, after those that it received before. -/
def send (post : Http.Post) : StateM (List Http.Post) Http.Exchange := fun received =>
  (server.exchange received.length, received ++ [post])

/-- The replies to posts in a row, from the one with an index on. -/
def replies (url : String) (start count : Nat) : List Reply :=
  (List.range' start count).map fun index => reply url (server.exchange index)

theorem replies_succ (url : String) (start count : Nat) :
    server.replies url start (count + 1) =
      reply url (server.exchange start) :: server.replies url (start + 1) count :=
  rfl

end Server

/-! ## Kinds of answers -/

/-- Whether an answer tells of a failure that may pass. -/
def isTransient (answer : Http.Answer) : Bool :=
  answer.status.isServerError || answer.status.isTooManyRequests

/-- An answer that tells of success and has a body with something in it. -/
def Accepts (answer : Http.Answer) : Prop :=
  answer.status.isSuccess = true ∧ ∃ c ∈ answer.body.toList, Text.isBlank c = false

/-- What is wrong with an answer that is not accepted. -/
def fault (answer : Http.Answer) : RenderError :=
  if answer.status.isSuccess then .emptyResponse else .rejected answer.status answer.body

theorem isBlankText_eq_false_iff (text : String) :
    Text.isBlankText text = false ↔ ∃ c ∈ text.toList, Text.isBlank c = false := by
  simp [Text.isBlankText]

theorem rendered_of_accepts {answer : Http.Answer} (accepted : Accepts answer) :
    rendered answer = .ok answer.body := by
  have filled := (isBlankText_eq_false_iff answer.body).mpr accepted.2
  simp [rendered, accepted.1, filled]

theorem rendered_of_not_accepts {answer : Http.Answer} (refused : ¬ Accepts answer) :
    rendered answer = .error (fault answer) := by
  cases success : answer.status.isSuccess with
  | false => simp [rendered, fault, success]
  | true =>
      have blank : Text.isBlankText answer.body = true := by
        rw [← Bool.not_eq_false, isBlankText_eq_false_iff]
        exact fun filled => refused ⟨success, filled⟩
      simp [rendered, fault, success, blank]

theorem rendered_eq_ok_iff {answer : Http.Answer} {text : String} :
    rendered answer = .ok text ↔ Accepts answer ∧ answer.body = text := by
  by_cases accepted : Accepts answer
  · simp [rendered_of_accepts accepted, accepted]
  · simp [rendered_of_not_accepts accepted, accepted]

theorem rendered_eq_error_iff {answer : Http.Answer} {error : RenderError} :
    rendered answer = .error error ↔ ¬ Accepts answer ∧ fault answer = error := by
  by_cases accepted : Accepts answer
  · simp [rendered_of_accepts accepted, accepted]
  · simp [rendered_of_not_accepts accepted, accepted]

/-- Success is never transient, so that only the status of an answer decides on another attempt. -/
theorem isTransient_eq_false_of_isSuccess {answer : Http.Answer}
    (success : answer.status.isSuccess = true) : isTransient answer = false := by
  simp only [Http.Status.isSuccess, Bool.and_eq_true, decide_eq_true_eq] at success
  simp only [isTransient, Http.Status.isServerError, Http.Status.isTooManyRequests,
    Bool.or_eq_false_iff, Bool.and_eq_false_iff, decide_eq_false_iff_not, beq_eq_false_iff_ne]
  omega

/-- Another attempt is called for exactly by a transient failure. -/
theorem wantsRetry_rendered (answer : Http.Answer) :
    wantsRetry (rendered answer) = isTransient answer := by
  by_cases accepted : Accepts answer
  · rw [rendered_of_accepts accepted, isTransient_eq_false_of_isSuccess accepted.1, wantsRetry]
  · rw [rendered_of_not_accepts accepted, fault]
    split
    · next success => rw [isTransient_eq_false_of_isSuccess success]; rfl
    · rfl

/-! ## Stretches of answers -/

/-- How many answers a request uses up: it stops at the first that is no transient failure, and with
its budget spent. -/
def Uses (budget : Nat) (answers : List Http.Answer) (start count : Nat) : Prop :=
  IsLeast {count | 1 ≤ count ∧ count ≤ budget ∧ (count = budget ∨
    ∃ answer, answers[start + count - 1]? = some answer ∧ isTransient answer = false)} count

theorem uses_of_transient {budget start count : Nat} {answers : List Http.Answer}
    {last : Http.Answer} (found : answers[start + count]? = some last) (within : count < budget)
    (again : ∀ index < count, ∀ answer, answers[start + index]? = some answer →
      isTransient answer = true)
    (final : isTransient last = false ∨ count + 1 = budget) :
    Uses budget answers start (count + 1) := by
  refine ⟨⟨Nat.le_add_left 1 count, within, final.symm.imp_right fun done => ⟨last, found, done⟩⟩,
    ?_⟩
  rintro other ⟨positive, -, stops⟩
  by_contra less
  rcases stops with rfl | ⟨answer, there, done⟩
  · omega
  · rw [Nat.add_sub_assoc positive] at there
    rw [again (other - 1) (by omega) answer there] at done
    cases done

variable {policy : RetryPolicy} {server : Server policy.timeout} {url : String}
  {start count index : Nat}

/-- An answer that comes in time is judged as it is. -/
theorem outcomeOf_answered {delay : Nat} (url : String) (answer : Http.Answer)
    (inTime : delay ≤ policy.timeout) :
    policy.outcomeOf (reply url (.answered delay answer)) = rendered answer := by
  rw [RetryPolicy.outcomeOf, reply, Reply.within, if_pos inTime]

theorem outcomeOf_exchange {answer : Http.Answer} (found : server.answers[index]? = some answer) :
    policy.outcomeOf (reply url (server.exchange index)) = rendered answer := by
  rw [Server.exchange, found]
  exact outcomeOf_answered url answer (server.inTime index)

theorem getElem?_replies (inside : index < count) :
    (server.replies url start count)[index]? =
      some (reply url (server.exchange (start + index))) := by
  simp [Server.replies, inside]

/-- Replies that a dispatch ends with come of as many answers as its request uses up. -/
theorem exists_uses_of_endsWith {request : Request} {result : Rendered}
    (ends : EndsWith policy request (server.replies url start count) result)
    (enough : start + count ≤ server.answers.length) :
    ∃ last, server.answers[start + count - 1]? = some last ∧ result = rendered last ∧
      Uses (max 1 policy.maxAttempts) server.answers start count := by
  obtain ⟨earlier, last, split, rfl, spends⟩ := endsWith_iff.mp ends
  obtain rfl : count = earlier.length + 1 := by
    simpa [Server.replies] using congrArg List.length split
  obtain ⟨answer, found⟩ : ∃ answer, server.answers[start + earlier.length]? = some answer :=
    ⟨_, List.getElem?_eq_getElem enough⟩
  have replied : ∀ index ≤ earlier.length,
      (earlier ++ [last])[index]? = some (reply url (server.exchange (start + index))) :=
    fun index there => split ▸ getElem?_replies (Nat.lt_succ_of_le there)
  have final : policy.outcomeOf last = rendered answer := by
    have same := replied earlier.length (Nat.le_refl _)
    rw [List.getElem?_concat_length, Option.some.injEq] at same
    rw [same, outcomeOf_exchange found]
  have retries : policy.retries + 1 = max 1 policy.maxAttempts := by
    rw [RetryPolicy.retries]
    omega
  refine ⟨answer, found, final, uses_of_transient found ?_ ?_ ?_⟩
  · have budget := spends.budget
    omega
  · intro index there other foundToo
    have same := replied index (Nat.le_of_lt there)
    rw [List.getElem?_append_left there] at same
    have wants := spends.again _ (List.mem_of_getElem? same)
    rwa [outcomeOf_exchange foundToo, wantsRetry_rendered] at wants
  · have stops := spends.final
    rw [final, wantsRetry_rendered] at stops
    exact stops.imp_right fun spent => by omega

end ApiBindings.Rendering.Service
