import ApiBindings.Proofs.Rendering.Service
import ApiBindings.Proofs.Run.Settlement
import ApiBindings.Run

/-!
# Runs against the rendering service

With one slot a run works on one model after the other.  Each request takes the answers that come
next, as many as its own budget has it, whatever became of the models before; then its text is
written, if there is one, and the next request goes on with the answers that are left.
-/

namespace ApiBindings.Run

open Rendering (EndsWith)
open Rendering.Service (Server Accepts Uses post fault rendered renderer)

/-- What a run against a server has to do with: the address of the server and the server itself, how
requests are retried, and what files are generated for. -/
structure Line where
  url : String
  policy : RetryPolicy
  server : Server policy.timeout
  context : Binding.Context

/-- The posts that a server received, next to the files that a run works on. -/
abbrev Desk := Site (List Http.Post)

namespace Line

variable (line : Line)

/-- Requests are posted to the server. -/
def tools : Tools Desk :=
  Site.tools (renderer line.url line.server.send) line.context.layout line.policy

/-- Perform the plan for a graph, one model at a time. -/
def perform (graph : Source.Graph) : StateM Desk Summary :=
  Site.perform (renderer line.url line.server.send) line.context.layout
    { retry := line.policy, concurrency := 1 } (Plan.ofGraph line.context graph)

/-- Write a text to the file of a model. -/
def write (id : ModelId) (text : String) : StateM FileTree (Except EmitError Path) :=
  line.context.layout.emit id text

/-- A desk with a request posted again and again. -/
def posted (desk : Desk) (request : Request) (count : Nat) : Desk :=
  { desk with renderer := desk.renderer ++ List.replicate count (post line.url request) }

/-- The render calls for a request that is posted again and again. -/
def calls (id : ModelId) (request : Request) (desk : Desk) (count : Nat) : List Event :=
  Run.calls id request
    (line.server.replies (post line.url request).url desk.renderer.length count)

/-- A request uses up some of the answers that the server has left. -/
structure Answers (desk : Desk) (count : Nat) (last : Http.Answer) : Prop where
  uses : Uses (max 1 line.policy.maxAttempts) line.server.answers desk.renderer.length count
  last : line.server.answers[desk.renderer.length + count - 1]? = some last

/-- What becomes of a plan, entry by entry, with all that is asked of the tools on the way. -/
inductive Account : List Plan.Entry → Desk → List Event → List Outcome → Desk → Prop where
  | nil (desk : Desk) : Account [] desk [] [] desk
  /-- Nothing is asked for a model without a request. -/
  | unbound (id : ModelId) (error : BindError) {plan : List Plan.Entry} {desk final : Desk}
      {log : List Event} {outcomes : List Outcome} (rest : Account plan desk log outcomes final) :
      Account (⟨id, .error error⟩ :: plan) desk log (⟨id, .error (.binding error)⟩ :: outcomes)
        final
  /-- The outcome is the fault of the last answer, and no file is written. -/
  | refused (id : ModelId) {request : Request} {count : Nat} {last : Http.Answer}
      {plan : List Plan.Entry} {desk final : Desk} {log : List Event} {outcomes : List Outcome}
      (answers : line.Answers desk count last) (refused : ¬ Accepts last)
      (rest : Account plan (line.posted desk request count) log outcomes final) :
      Account (⟨id, .ok request⟩ :: plan) desk (line.calls id request desk count ++ log)
        (⟨id, .error (.rendering (fault last))⟩ :: outcomes) final
  /-- The body of the last answer is written once. Whatever comes of that, nothing else is posted
  for the model. -/
  | accepted (id : ModelId) {request : Request} {count : Nat} {last : Http.Answer}
      {plan : List Plan.Entry} {desk final : Desk} {log : List Event} {outcomes : List Outcome}
      {result : Except EmitError Path} {files : FileTree}
      (answers : line.Answers desk count last) (accepted : Accepts last)
      (written : (line.write id last.body).run desk.files = (result, files))
      (rest : Account plan { line.posted desk request count with files } log outcomes final) :
      Account (⟨id, .ok request⟩ :: plan) desk
        (line.calls id request desk count ++ .emitted id last.body result :: log)
        (⟨id, result.mapError .emission⟩ :: outcomes) final

variable {line} {desk after : Desk}

theorem length_posted (request : Request) (count : Nat) :
    (line.posted desk request count).renderer.length = desk.renderer.length + count := by
  simp [posted]

/-! ## Traces -/

theorem posted_posted (request : Request) (first second : Nat) :
    line.posted (line.posted desk request first) request second =
      line.posted desk request (first + second) := by
  simp [posted]

theorem render_run (request : Request) :
    (line.tools.render request).run desk =
      (Rendering.Service.reply (post line.url request).url
        (line.server.exchange desk.renderer.length), line.posted desk request 1) :=
  rfl

theorem trace_calls {id : ModelId} {request : Request} {replies : List Reply}
    (trace : Trace line.tools desk (Run.calls id request replies) after) :
    after = line.posted desk request replies.length ∧
      replies = line.server.replies (post line.url request).url desk.renderer.length
        replies.length := by
  induction replies generalizing desk with
  | nil =>
      cases trace
      simp [posted, Server.replies]
  | cons reply rest ih =>
      cases trace with
      | rendered asked others =>
          rw [render_run, Prod.mk.injEq] at asked
          obtain ⟨rfl, rfl⟩ := asked
          obtain ⟨rfl, same⟩ := ih others
          refine ⟨?_, ?_⟩
          · rw [posted_posted, List.length_cons, Nat.add_comm]
          · rw [List.length_cons, Server.replies_succ]
            rw [length_posted] at same
            exact congrArg _ same

theorem trace_emitted {id : ModelId} {text : String} {result : Except EmitError Path}
    (trace : Trace line.tools desk [.emitted id text result] after) :
    ∃ files, (line.write id text).run desk.files = (result, files) ∧
      after = { desk with files } := by
  cases trace with
  | emitted asked rest =>
      cases rest
      cases asked
      exact ⟨_, rfl, rfl⟩

/-- A server never forgets what it received. -/
theorem length_received_le {log : List Event} (trace : Trace line.tools desk log after) :
    desk.renderer.length ≤ after.renderer.length := by
  induction trace with
  | nil => exact Nat.le_refl _
  | rendered asked rest ih =>
      rw [render_run, Prod.mk.injEq] at asked
      obtain ⟨-, rfl⟩ := asked
      rw [length_posted] at ih
      exact Nat.le_of_succ_le ih
  | emitted asked rest ih =>
      cases asked
      exact ih

/-! ## Runs -/

/-- A dispatch that ends is one that used up its answers. -/
theorem exists_answers {id : ModelId} {request : Request} {replies : List Reply} {result : Rendered}
    (ends : EndsWith line.policy request replies result)
    (trace : Trace line.tools desk (Run.calls id request replies) after)
    (enough : after.renderer.length ≤ line.server.answers.length) :
    ∃ count last, line.Answers desk count last ∧ result = rendered last ∧
      Run.calls id request replies = line.calls id request desk count ∧
      after = line.posted desk request count := by
  obtain ⟨rfl, same⟩ := trace_calls trace
  rw [length_posted] at enough
  rw [same] at ends
  obtain ⟨last, found, rfl, uses⟩ := Rendering.Service.exists_uses_of_endsWith ends enough
  exact ⟨replies.length, last, ⟨uses, found⟩, rfl, congrArg _ same, rfl⟩

/-- What the conversations of a run come to, one after the other, is an account of their entries. -/
theorem account_of_settles {conversations : List Conversation} {outcomes : List Outcome}
    (settled : List.Forall₂ (Settles line.policy) conversations outcomes)
    (trace : Trace line.tools desk (conversations.map (·.events)).flatten after)
    (enough : after.renderer.length ≤ line.server.answers.length) :
    line.Account (conversations.map (·.entry)) desk (conversations.map (·.events)).flatten outcomes
      after := by
  induction settled generalizing desk with
  | nil =>
      cases trace
      exact .nil _
  | cons settles rest ih =>
      simp only [List.map_cons, List.flatten_cons] at trace ⊢
      obtain ⟨between, own, others⟩ := trace.exists_of_append
      have account := ih others
      have received := Nat.le_trans (length_received_le others) enough
      cases settles with
      | unbound id error =>
          cases own
          exact .unbound id error account
      | unrendered id ends =>
          obtain ⟨count, last, answers, same, events, rfl⟩ := exists_answers ends own received
          obtain ⟨refused, rfl⟩ := Rendering.Service.rendered_eq_error_iff.mp same.symm
          rw [events]
          exact .refused id answers refused account
      | emitted id ends result =>
          obtain ⟨called, calling, writing⟩ := own.exists_of_append
          obtain ⟨files, written, rfl⟩ := trace_emitted writing
          obtain ⟨count, last, answers, same, events, rfl⟩ := exists_answers ends calling received
          obtain ⟨accepted, rfl⟩ := Rendering.Service.rendered_eq_ok_iff.mp same.symm
          rw [events, List.append_assoc]
          exact .accepted id answers accepted written account

/-- In a run that the server has enough answers for, every request spends its own budget and no
more, and what is written are the bodies of answers that tell of success. -/
theorem exists_account (line : Line) (graph : Source.Graph) (desk : Desk)
    (enough : ((line.perform graph).run desk).2.renderer.length ≤ line.server.answers.length) :
    ∃ log, Trace line.tools desk log ((line.perform graph).run desk).2 ∧
      line.Account (Plan.ofGraph line.context graph) desk log
        ((line.perform graph).run desk).1.report.outcomes ((line.perform graph).run desk).2 := by
  obtain ⟨conversations, log, transcript⟩ :=
    exists_transcript line.tools Nat.one_pos (Plan.ofGraph line.context graph) desk
  have sequential := transcript.woven.sequential rfl
  have trace := transcript.trace
  rw [sequential] at trace
  have account := account_of_settles transcript.outcomes trace enough
  rw [transcript.entries] at account
  exact ⟨_, trace, account⟩

/-- Two answers for the first request, because it is attempted again, leave the third to the second
request, for which a blank text is no success. -/
theorem exists_account_second_attempt :
    let line : Line := {
      url := "http://localhost:8080/"
      policy := {}
      server := {
        answers := [⟨⟨503⟩, ""⟩, ⟨⟨200⟩, "export class A \x7b\x7d"⟩, ⟨⟨200⟩, " \n"⟩]
        delay := fun _ => 40
        inTime := fun _ => by decide }
      context := { layout := { root := ⟨"generated"⟩ } } }
    let graph : Source.Graph := { classes := [{ name := "A" }, { name := "B" }] }
    let desk : Desk := { renderer := [], files := {} }
    let ran := (line.perform graph).run desk
    ran.2.renderer.length = 3 ∧
      ran.1.report.failures = [(⟨"B", .model⟩, .rendering .emptyResponse)] ∧
      ∃ log, Trace line.tools desk log ran.2 ∧
        line.Account (Plan.ofGraph line.context graph) desk log ran.1.report.outcomes ran.2 :=
  ⟨by decide +kernel, by decide +kernel, exists_account _ _ _ (by decide +kernel)⟩

end Line

end ApiBindings.Run
