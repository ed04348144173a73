import ApiBindings.Proofs.Run.Settlement

/-!
# Outcomes of a run

Every entry of a plan has one outcome, in the order of the plan, whatever the tools do and however
many slots there are.  An outcome comes about in one of three ways: the entry had no request, its
request was not rendered, or a text was written for the entry.
-/

namespace ApiBindings.Run

variable {σ : Type} (tools : Tools σ)

/-- What the work on an entry may come to. -/
inductive Possible (entry : Plan.Entry) : Except ModelFailure Path → Prop where
  | unbound {error : BindError} (failed : entry.request = .error error) :
      Possible entry (.error (.binding error))
  | unrendered {request : Request} {error : RenderError} (own : entry.request = .ok request) :
      Possible entry (.error (.rendering error))
  /-- Some text was written for the entry, in some state of the tools. -/
  | written {request : Request} {text : String} {state : σ} (own : entry.request = .ok request) :
      Possible entry (((tools.emit entry.id text).run state).1.mapError .emission)

/-- An outcome that the work on an entry may have. -/
structure Concludes (entry : Plan.Entry) (outcome : Outcome) : Prop where
  id : outcome.id = entry.id
  result : Possible tools entry outcome.result

variable {tools}

theorem Settles.concludes {conversation : Conversation} {outcome : Outcome}
    (answered : ∀ id text result, .emitted id text result ∈ conversation.events →
      ∃ state, result = ((tools.emit id text).run state).1)
    (settles : Settles tools.policy conversation outcome) :
    Concludes tools conversation.entry outcome := by
  cases settles with
  | unbound id error => exact ⟨rfl, .unbound rfl⟩
  | unrendered id ends => exact ⟨rfl, .unrendered rfl⟩
  | @emitted id request replies text ends result =>
      obtain ⟨state, rfl⟩ := answered id text result (by simp)
      exact ⟨rfl, .written rfl⟩

/-- Every entry of a plan has one outcome, in the order of the plan. -/
theorem forall₂_ofPlan (tools : Tools σ) {slots : Nat} (positive : 0 < slots)
    (plan : List Plan.Entry) (state : σ) :
    List.Forall₂ (Concludes tools) plan
      ((ofPlan tools slots plan).run state).1.report.outcomes := by
  obtain ⟨conversations, log, transcript⟩ := exists_transcript tools positive plan state
  have answered : ∀ conversation ∈ conversations, ∀ id text result,
      .emitted id text result ∈ conversation.events →
        ∃ state, result = ((tools.emit id text).run state).1 := by
    intro conversation member id text result inside
    exact transcript.trace.exists_of_emitted
      (transcript.woven.interleaves.mem (List.mem_map_of_mem member) inside)
  have concluded : List.Forall₂ (Concludes tools) (conversations.map (·.entry))
      ((ofPlan tools slots plan).run state).1.report.outcomes := by
    rw [List.forall₂_map_left_iff]
    exact ((List.forall₂_and_left _ _).mpr ⟨answered, transcript.outcomes⟩).imp
      fun _ _ both => both.2.concludes both.1
  rwa [transcript.entries] at concluded

end ApiBindings.Run
