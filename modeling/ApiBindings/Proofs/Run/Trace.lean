import ApiBindings.Run.Task

/-!
# Traces of a run

What a run asks of its tools and what it gets back, event by event, in the order of the calls.  The
events of a run are those of the work on each of its entries, taken up in turns: each piece of work
keeps its own order, whichever way the pieces are woven together.
-/

namespace ApiBindings.Run

/-- Something that is asked of the tools, with what they give back. -/
inductive Event where
  | rendered (id : ModelId) (request : Request) (reply : Reply)
  | emitted (id : ModelId) (text : String) (result : Except EmitError Path)

/-- The model of a render call. -/
def Event.rendered? : Event → Option ModelId
  | .rendered id _ _ => some id
  | .emitted _ _ _ => none

variable {σ : Type}

/-- With these events in this order, the tools come from one state to another. -/
inductive Trace (tools : Tools σ) : σ → List Event → σ → Prop where
  | nil (state : σ) : Trace tools state [] state
  | rendered {before after final : σ} {id : ModelId} {request : Request} {reply : Reply}
      {events : List Event} (asked : (tools.render request).run before = (reply, after))
      (rest : Trace tools after events final) :
      Trace tools before (.rendered id request reply :: events) final
  | emitted {before after final : σ} {id : ModelId} {text : String}
      {result : Except EmitError Path} {events : List Event}
      (asked : (tools.emit id text).run before = (result, after))
      (rest : Trace tools after events final) :
      Trace tools before (.emitted id text result :: events) final

namespace Trace

variable {tools : Tools σ} {before between after : σ} {first second : List Event}

theorem append (trace : Trace tools before first between)
    (traceToo : Trace tools between second after) : Trace tools before (first ++ second) after := by
  induction trace with
  | nil => exact traceToo
  | rendered asked rest ih => exact .rendered asked (ih traceToo)
  | emitted asked rest ih => exact .emitted asked (ih traceToo)

theorem exists_of_append (trace : Trace tools before (first ++ second) after) :
    ∃ between, Trace tools before first between ∧ Trace tools between second after := by
  induction first generalizing before with
  | nil => exact ⟨before, .nil before, trace⟩
  | cons event rest ih =>
      cases trace with
      | rendered asked trace =>
          obtain ⟨between, toThere, fromThere⟩ := ih trace
          exact ⟨between, .rendered asked toThere, fromThere⟩
      | emitted asked trace =>
          obtain ⟨between, toThere, fromThere⟩ := ih trace
          exact ⟨between, .emitted asked toThere, fromThere⟩

/-- The result of an emission is what the tools gave back in some state. -/
theorem exists_of_emitted {id : ModelId} {text : String} {result : Except EmitError Path}
    {events : List Event} (trace : Trace tools before events after)
    (member : .emitted id text result ∈ events) :
    ∃ state, result = ((tools.emit id text).run state).1 := by
  induction trace with
  | nil => cases member
  | rendered asked rest ih =>
      rcases List.mem_cons.mp member with same | later
      · cases same
      · exact ih later
  | @emitted state _ _ _ _ _ _ asked rest ih =>
      rcases List.mem_cons.mp member with same | later
      · cases same
        exact ⟨state, by rw [asked]⟩
      · exact ih later

end Trace

/-- Several conversations woven into one, each of them in its own order. -/
inductive Interleaves : List (List Event) → List Event → Prop where
  | silent {conversations : List (List Event)}
      (silent : ∀ conversation ∈ conversations, conversation = []) : Interleaves conversations []
  | more {before after : List (List Event)} {conversation log : List Event}
      (interleaves : Interleaves (before ++ conversation :: after) log) (event : Event) :
      Interleaves (before ++ (conversation ++ [event]) :: after) (log ++ [event])

namespace Interleaves

variable {conversations before after : List (List Event)} {conversation log : List Event}

/-- One of the conversations goes on by several events. -/
theorem extend (interleaves : Interleaves (before ++ conversation :: after) log)
    (new : List Event) :
    Interleaves (before ++ (conversation ++ new) :: after) (log ++ new) := by
  induction new generalizing conversation log with
  | nil => simpa using interleaves
  | cons event rest ih =>
      have next := ih (interleaves.more event)
      simpa using next

/-- Another conversation starts. -/
theorem start (interleaves : Interleaves conversations log) :
    Interleaves (conversations ++ [[]]) log := by
  induction interleaves with
  | silent silent =>
      refine .silent fun conversation member => ?_
      rcases List.mem_append.mp member with old | new
      · exact silent conversation old
      · exact List.mem_singleton.mp new
  | more interleaves event ih =>
      rw [List.append_assoc, List.cons_append] at ih ⊢
      exact ih.more event

theorem mem {event : Event} (interleaves : Interleaves conversations log)
    (member : conversation ∈ conversations) (inside : event ∈ conversation) : event ∈ log := by
  induction interleaves generalizing conversation with
  | silent silent => simp [silent conversation member] at inside
  | @more before after other log interleaves last ih =>
      rw [List.mem_append]
      rcases List.mem_append.mp member with early | late
      · exact .inl (ih (List.mem_append_left _ early) inside)
      · rcases List.mem_cons.mp late with rfl | later
        · rcases List.mem_append.mp inside with old | new
          · exact .inl (ih (by simp) old)
          · exact .inr new
        · exact .inl (ih (by simp [later]) inside)

end Interleaves

end ApiBindings.Run
