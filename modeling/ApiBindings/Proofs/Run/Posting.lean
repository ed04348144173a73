import ApiBindings.Proofs.Rendering.Service
import ApiBindings.Proofs.Run.Settlement
import ApiBindings.Run

/-!
# What a run posts

A rendering service that answers every post with a text is asked once for each request.  With one
slot the posts come in the order of the plan, whatever becomes of the texts.
-/

namespace ApiBindings

/-- The requests of a plan, in its order. -/
def Plan.requests (plan : List Entry) : List Request :=
  plan.filterMap (·.request.toOption)

/-- A service that keeps what is posted to it, and that answers every post in time with a body that
is not blank. -/
structure Rendering.Service.Obliging {σ : Type} (limit : Nat)
    (send : Http.Post → StateM σ Http.Exchange) (received : σ → List Http.Post) : Prop where
  keeps : ∀ post state, received ((send post).run state).2 = received state ++ [post]
  answers : ∀ post state, ∃ delay body, delay ≤ limit ∧ Text.isBlankText body = false ∧
    ((send post).run state).1 = .answered delay ⟨⟨200⟩, body⟩

namespace Run

open Rendering.Service (Accepts Obliging isBlankText_eq_false_iff outcomeOf_answered post renderer
  rendered_of_accepts)

variable {σ : Type} {policy : RetryPolicy} {send : Http.Post → StateM σ Http.Exchange}
  {received : σ → List Http.Post} {url : String} {layout : Layout} {before after : Site σ}

/-- The posts for a request that is rendered several times. No reply to them calls for another. -/
theorem received_of_calls (obliging : Obliging policy.timeout send received) {id : ModelId}
    {request : Request} {replies : List Reply}
    (trace : Trace (Site.tools (renderer url send) layout policy) before
      (calls id request replies) after) :
    received after.renderer =
        received before.renderer ++ List.replicate replies.length (post url request) ∧
      ∀ reply ∈ replies, wantsRetry (policy.outcomeOf reply) = false := by
  induction replies generalizing before with
  | nil =>
      cases trace
      simp
  | cons first rest ih =>
      cases trace with
      | rendered asked others =>
          obtain ⟨delay, body, inTime, filled, answered⟩ :=
            obliging.answers (post url request) before.renderer
          have kept := obliging.keeps (post url request) before.renderer
          cases asked
          obtain ⟨posted, final⟩ := ih others
          refine ⟨?_, List.forall_mem_cons.mpr ⟨?_, final⟩⟩
          · rw [posted, List.length_cons, List.replicate_succ, List.append_cons]
            exact congrArg (· ++ _) kept
          · have accepted : Accepts ⟨⟨200⟩, body⟩ := ⟨rfl, (isBlankText_eq_false_iff body).mp filled⟩
            have text := outcomeOf_answered (post url request).url ⟨⟨200⟩, body⟩ inTime
            rw [← answered, rendered_of_accepts accepted] at text
            exact congrArg wantsRetry text

/-- A request is posted once, and nothing is posted for a model without one. -/
theorem received_of_settles (obliging : Obliging policy.timeout send received)
    {conversation : Conversation} {outcome : Outcome}
    (settles : Settles policy conversation outcome)
    (trace : Trace (Site.tools (renderer url send) layout policy) before conversation.events
      after) :
    received after.renderer =
      received before.renderer ++ (Plan.requests [conversation.entry]).map (post url) := by
  cases settles with
  | unbound id error =>
      cases trace
      exact (List.append_nil _).symm
  | unrendered id ends =>
      obtain ⟨posted, final⟩ := received_of_calls obliging trace
      rw [posted, ends.length_eq_one final]
      rfl
  | emitted id ends result =>
      obtain ⟨called, calling, writing⟩ := trace.exists_of_append
      obtain ⟨posted, final⟩ := received_of_calls obliging calling
      have kept : after.renderer = called.renderer := by
        cases writing with
        | emitted asked rest =>
            cases rest
            cases asked
            rfl
      rw [kept, posted, ends.length_eq_one final]
      rfl

theorem received_of_conversations (obliging : Obliging policy.timeout send received)
    {conversations : List Conversation} {outcomes : List Outcome}
    (settled : List.Forall₂ (Settles policy) conversations outcomes)
    (trace : Trace (Site.tools (renderer url send) layout policy) before
      (conversations.map (·.events)).flatten after) :
    received after.renderer = received before.renderer ++
      (Plan.requests (conversations.map (·.entry))).map (post url) := by
  induction settled generalizing before with
  | nil =>
      cases trace
      exact (List.append_nil _).symm
  | @cons conversation outcome rest _ settles _ ih =>
      rw [List.map_cons, List.flatten_cons] at trace
      obtain ⟨between, own, others⟩ := trace.exists_of_append
      have split : Plan.requests (conversation.entry :: rest.map (·.entry)) =
          Plan.requests [conversation.entry] ++ Plan.requests (rest.map (·.entry)) :=
        List.filterMap_append (l := [conversation.entry])
      rw [ih others, received_of_settles obliging settles own, List.map_cons, split,
        List.map_append, List.append_assoc]

/-- With one slot a service that answers every post with a text receives each request of a plan
once, in the order of the plan. -/
theorem received_perform {options : Options}
    (obliging : Obliging options.retry.timeout send received)
    (single : options.slots = 1) (plan : List Plan.Entry) (site : Site σ) :
    received ((Site.perform (renderer url send) layout options plan).run site).2.renderer =
      received site.renderer ++ (Plan.requests plan).map (post url) := by
  obtain ⟨conversations, log, transcript⟩ :=
    exists_transcript (Site.tools (renderer url send) layout options.retry)
      (Options.slots_pos options) plan site
  have trace := transcript.trace
  rw [transcript.woven.sequential single] at trace
  have posted := received_of_conversations obliging transcript.outcomes trace
  rwa [transcript.entries] at posted

end Run

end ApiBindings
