import ApiBindings.Proofs.CommandLine.Generate
import ApiBindings.Proofs.Rendering.Wire
import ApiBindings.Proofs.Run.Posting

/-!
# Translating and generating

The two commands are about the same requests.  What is printed by the one that translates are the
documents that are posted by the one that generates, and the models that one of them cannot
translate are those that the other cannot translate either.
-/

namespace ApiBindings

/-! ## Models without a request -/

/-- The models of a plan that have no request, with the reasons. -/
def Plan.unbound (plan : List Entry) : List (ModelId × BindError) :=
  plan.filterMap fun entry =>
    match entry.request with
    | .ok _ => none
    | .error error => some (entry.id, error)

namespace Report

/-- The models that failed because they have no request, with the reasons. -/
def unbound (report : Report) : List (ModelId × BindError) :=
  report.failures.filterMap fun (id, failure) =>
    match failure with
    | .binding error => some (id, error)
    | .rendering _ | .emission _ => none

theorem unbound_append (first second : List Outcome) :
    unbound ⟨first ++ second⟩ = unbound ⟨first⟩ ++ unbound ⟨second⟩ := by
  rw [unbound, failures, List.filterMap_append, List.filterMap_append]
  rfl

theorem unbound_sublist (report : Report) :
    (report.unbound.map fun (id, error) => (id, ModelFailure.binding error)).Sublist
      report.failures := by
  rw [unbound]
  induction report.failures with
  | nil => exact .slnil
  | cons failed rest ih =>
      obtain ⟨id, error | error | error⟩ := failed
      · exact ih.cons_cons _
      · exact ih.cons _
      · exact ih.cons _

end Report

namespace Run

variable {policy : RetryPolicy}

theorem unbound_of_settles {conversation : Conversation} {outcome : Outcome}
    (settles : Settles policy conversation outcome) :
    Report.unbound ⟨[outcome]⟩ = Plan.unbound [conversation.entry] := by
  cases settles with
  | unbound id error => rfl
  | unrendered id ends => rfl
  | emitted id ends result => cases result <;> rfl

theorem unbound_of_conversations {conversations : List Conversation} {outcomes : List Outcome}
    (settled : List.Forall₂ (Settles policy) conversations outcomes) :
    Report.unbound ⟨outcomes⟩ = Plan.unbound (conversations.map (·.entry)) := by
  induction settled with
  | nil => rfl
  | @cons conversation outcome conversations outcomes settles _ ih =>
      have first : Plan.unbound (conversation.entry :: conversations.map (·.entry)) =
          Plan.unbound [conversation.entry] ++ Plan.unbound (conversations.map (·.entry)) :=
        List.filterMap_append (l := [conversation.entry])
      rw [← List.singleton_append, Report.unbound_append, unbound_of_settles settles, ih,
        List.map_cons, first]

/-- Whatever the renderer does, what fails for want of a request is what has none. -/
theorem unbound_perform {σ : Type} (render : Renderer σ) (layout : Layout) (options : Options)
    (plan : List Plan.Entry) (site : Site σ) :
    ((Site.perform render layout options plan).run site).1.report.unbound = Plan.unbound plan := by
  obtain ⟨conversations, log, transcript⟩ :=
    exists_transcript (Site.tools render layout options.retry) (Options.slots_pos options) plan site
  have unbound := unbound_of_conversations transcript.outcomes
  rwa [transcript.entries] at unbound

end Run

namespace CommandLine

open Run (Site)
open Rendering.Service (Obliging trimUrl post)

/-! ## What is printed -/

theorem parse?_line {document : Json} (written : Json.Written document) :
    Json.parse? (line document.indented) = some document := by
  have ends := (written.cuts_indentedChars 0).parse?_append written
    (rfl : ['\n'].all Json.Token.isGap = true)
  rwa [String.ofList_append] at ends

/-- The lines about models that have no request. -/
def untranslatedLines (plan : List Plan.Entry) : List String :=
  (Plan.unbound plan).map fun (id, error) => failedLine id error.message

theorem reportPlan_eq (plan : List Plan.Entry) :
    reportPlan plan =
      let stdout := line (Json.array ((Plan.requests plan).map Request.toJson)).indented
      let failed := untranslatedLines plan
      if failed.isEmpty then { stdout }
      else
        let closing := toString failed.length ++ " models failed to translate"
        { code := failureCode, stdout, stderr := lines (failed ++ [closing]) } := by
  have listed : untranslatedLines plan = plan.filterMap fun entry =>
      match entry.request with
      | .ok _ => none
      | .error error => some (failedLine entry.id error.message) := by
    rw [untranslatedLines, Plan.unbound, List.map_filterMap]
    congr 1
    funext entry
    cases entry.request <;> rfl
  rw [listed]
  rfl

theorem reportPlan_stdout (plan : List Plan.Entry) :
    (reportPlan plan).stdout =
      line (Json.array ((Plan.requests plan).map Request.toJson)).indented := by
  rw [reportPlan_eq]
  dsimp only
  split <;> rfl

theorem reportPlan_stderr (plan : List Plan.Entry) :
    (reportPlan plan).stderr =
      if Plan.unbound plan = [] then ""
      else lines (untranslatedLines plan ++
        [toString (Plan.unbound plan).length ++ " models failed to translate"]) := by
  have length : (untranslatedLines plan).length = (Plan.unbound plan).length := List.length_map _
  rw [reportPlan_eq, ← length]
  by_cases none : Plan.unbound plan = []
  · rw [if_pos none, untranslatedLines, none]
    rfl
  · have filled : ¬ (untranslatedLines plan).isEmpty = true := by
      rwa [List.isEmpty_iff, untranslatedLines, List.map_eq_nil_iff]
    dsimp only
    rw [if_neg none, if_neg filled]

theorem unboundLines_sublist (report : Report) :
    (report.unbound.map fun (id, error) =>
      failedLine id (ModelFailure.binding error).message).Sublist (failedLines report) := by
  have told := report.unbound_sublist.map fun (id, failure) => failedLine id failure.message
  rwa [List.map_map] at told

/-! ## The same work -/

theorem unbound_performAt {σ : Type} (send : Http.Post → StateM σ Http.Exchange)
    (settings : Settings) (plan : List Plan.Entry) (site : Site σ) :
    ((performAt send settings plan).run site).1.report.unbound = Plan.unbound plan :=
  Run.unbound_perform _ _ _ plan site

/-- A post that hands a request to a rendering service. -/
structure IsPostOf (url : String) (request : Request) (post : Http.Post) : Prop where
  body : post.body = request.wire
  address : post.url = trimUrl url ++
    if request.declaration.category = .enum then "/generate/enum" else "/generate/class"

theorem isPostOf_post (url : String) (request : Request) :
    IsPostOf url request (post url request) where
  body := rfl
  address := by
    obtain ⟨path, category, declaration⟩ := request
    cases declaration <;> rfl

/-- What the two commands do for a plan, from the same site and with the same settings. -/
structure SameWork (settings : Settings) (plan : List Plan.Entry) {σ : Type}
    (send : Http.Post → StateM σ Http.Exchange) (site : Site σ) : Prop where
  /-- One list of documents is printed, each of them the one that its request has on the wire. -/
  documents : ∃ documents,
    Json.parse? (Command.worked .translate settings send site).1.stdout = some (.array documents) ∧
      (Plan.requests plan).map (fun request => Json.parse? request.wire) = documents.map some
  /-- Each request is posted once, in the order of the documents. -/
  posts : settings.renderer = .http → settings.options.concurrency = 1 → ∀ received,
    Obliging settings.options.retry.timeout send received →
      ∃ posts, received (Command.worked .generate settings send site).2.renderer =
          received site.renderer ++ posts ∧
        List.Forall₂ (IsPostOf settings.url) (Plan.requests plan) posts
  /-- The models without a request are the only ones that are told of. -/
  untranslated : (Command.worked .translate settings send site).1.stderr =
    if Plan.unbound plan = [] then ""
    else lines (untranslatedLines plan ++
      [toString (Plan.unbound plan).length ++ " models failed to translate"])
  /-- Among the models that fail, the same ones do so for want of a request, and are told of. -/
  unbound : ∃ summary,
    (Command.worked .generate settings send site).1 = reportGenerate settings (.ok summary) ∧
      summary.report.unbound = Plan.unbound plan ∧
      ((Plan.unbound plan).map fun (id, error) =>
        failedLine id (ModelFailure.binding error).message).Sublist (failedLines summary.report)

/-- The two commands do the same work, whatever the settings, for every graph that loads. -/
theorem translate_generate_sameWork {settings : Settings} {σ : Type} {site : Site σ}
    {graph : Source.Graph} (send : Http.Post → StateM σ Http.Exchange)
    (loaded : Source.Graph.loaded site.files settings.source = .ok graph) :
    SameWork settings (Plan.ofGraph settings.context graph) send site where
  documents := by
    have written : Json.Written (.array
        ((Plan.requests (Plan.ofGraph settings.context graph)).map Request.toJson)) :=
      .map fun request _ => request.written_toJson
    rw [Command.worked_translate, loaded, reportTranslate, reportPlan_stdout, parse?_line written]
    refine ⟨_, rfl, ?_⟩
    rw [List.map_map]
    exact List.map_congr_left fun request _ => request.written_toJson.parse?_compact
  posts := by
    intro http single received obliging
    have performed : performAt send settings =
        Site.perform (Rendering.Service.renderer settings.url send) settings.context.layout
          settings.options := by
      rw [performAt, http]
    have slots : settings.options.slots = 1 := by rw [Run.Options.slots, single, Nat.max_self]
    rw [Command.worked_generate_of_ok loaded, performed]
    refine ⟨_, Run.received_perform obliging slots _ site, ?_⟩
    rw [List.forall₂_map_right_iff]
    exact List.forall₂_same.mpr fun request _ => isPostOf_post settings.url request
  untranslated := by
    rw [Command.worked_translate, loaded]
    exact reportPlan_stderr _
  unbound := by
    rw [Command.worked_generate_of_ok loaded]
    have same := unbound_performAt send settings (Plan.ofGraph settings.context graph) site
    refine ⟨_, rfl, same, ?_⟩
    rw [← same]
    exact unboundLines_sublist _

/-- Of two models for one file the second is told of by both commands, and the others are posted. -/
theorem translate_generate_sameWork_taken :
    let settings : Settings := {
      source := ⟨"g.json"⟩
      context := { layout := { root := ⟨"out"⟩ } }
      renderer := .http
      url := "http://localhost:8080/"
      options := { concurrency := 1 } }
    let send (post : Http.Post) : StateM (List Http.Post) Http.Exchange := fun received =>
      (.answered 40 ⟨⟨200⟩, "export \x7b\x7d;"⟩, received ++ [post])
    let text := "\x7b\"classes\":[\x7b\"name\":\"A\"\x7d,\x7b\"name\":\"A\"\x7d]," ++
      "\"enums\":[\x7b\"name\":\"E\",\"members\":[]\x7d]\x7d"
    let site : Site (List Http.Post) :=
      { renderer := [], files := { entries := [(["g.json".toList], .file text.toUTF8)] } }
    ∃ graph, Source.Graph.loaded site.files settings.source = .ok graph ∧
      Obliging settings.options.retry.timeout send id ∧
      (Plan.requests (Plan.ofGraph settings.context graph)).map Request.endpoint =
        ["/generate/class", "/generate/enum"] ∧
      (Plan.unbound (Plan.ofGraph settings.context graph)).map (·.1) = [⟨"A", .model⟩] ∧
      SameWork settings (Plan.ofGraph settings.context graph) send site := by
  intro settings send text site
  let seen (graph : Source.Graph) : List String × List ModelId :=
    let plan := Plan.ofGraph settings.context graph
    ((Plan.requests plan).map Request.endpoint, (Plan.unbound plan).map (·.1))
  have evaluated : (Source.Graph.loaded site.files settings.source).map seen =
      .ok (["/generate/class", "/generate/enum"], [⟨"A", .model⟩]) := by decide +kernel
  obtain ⟨graph, loaded, same⟩ := Except.map_eq_ok_iff.mp evaluated
  obtain ⟨endpoints, failed⟩ := Prod.mk.inj same
  have obliging : Obliging settings.options.retry.timeout send id :=
    ⟨fun _ _ => rfl, fun _ _ => ⟨40, _, by decide, by decide, rfl⟩⟩
  exact ⟨graph, loaded, obliging, endpoints, failed, translate_generate_sameWork send loaded⟩

end CommandLine

end ApiBindings
