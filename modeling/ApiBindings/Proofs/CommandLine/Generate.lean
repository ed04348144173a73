import ApiBindings.Proofs.CommandLine.Performing

/-!
# What generating tells

The command that generates files lists every model once, as written or as failed, in the order of
the models, and its exit code tells whether one failed.  What is listed as written is what the tree
holds at the end: no model that comes later writes to the same file.
-/

namespace ApiBindings

/-! ## Reports -/

namespace Report

/-- The identities of the models, in their order. -/
def ids (report : Report) : List ModelId :=
  report.outcomes.map (·.id)

theorem succeeded_sublist (report : Report) : (report.succeeded.map (·.1)).Sublist report.ids := by
  obtain ⟨outcomes⟩ := report
  induction outcomes with
  | nil => exact .slnil
  | cons outcome rest ih =>
      obtain ⟨id, failure | path⟩ := outcome
      · exact ih.cons id
      · exact ih.cons_cons id

theorem failures_sublist (report : Report) : (report.failures.map (·.1)).Sublist report.ids := by
  obtain ⟨outcomes⟩ := report
  induction outcomes with
  | nil => exact .slnil
  | cons outcome rest ih =>
      obtain ⟨id, failure | path⟩ := outcome
      · exact ih.cons_cons id
      · exact ih.cons id

/-- Every model is listed once: where it succeeded, or where it failed. -/
theorem succeeded_append_failures_perm (report : Report) :
    (report.succeeded.map (·.1) ++ report.failures.map (·.1)).Perm report.ids := by
  obtain ⟨outcomes⟩ := report
  induction outcomes with
  | nil => exact .refl []
  | cons outcome rest ih =>
      obtain ⟨id, failure | path⟩ := outcome
      · exact List.perm_middle.trans (ih.cons id)
      · exact ih.cons id

end Report

namespace Run

open FileTree (Grows)

variable {layout : Layout} {tree later : FileTree} {changed : Location → Prop}
  {entry : Plan.Entry} {plan : List Plan.Entry}

/-- What is reported for an entry is what a tree holds. -/
structure Holds (tree : FileTree) (entry : Plan.Entry) (outcome : Outcome) : Prop where
  id : outcome.id = entry.id
  /-- A model without a request fails for the reason why there is none. -/
  unbound : ∀ error, entry.request = .error error → outcome.result = .error (.binding error)
  written : ∀ path, outcome.result = .ok path → ∃ request, entry.request = .ok request ∧
    path = request.path ∧ tree.readFile path = .ok request.declaration.text.toUTF8

theorem holds_worked (announced : Announced layout entry)
    (kept : ∀ place, IsOutput entry place → ¬ changed place)
    (grows : Grows changed (worked layout printed entry tree).2 later) :
    Holds later entry (worked layout printed entry tree).1 := by
  obtain ⟨id, error | request⟩ := entry
  · exact ⟨rfl, by rintro _ ⟨⟩; rfl, by rintro _ ⟨⟩⟩
  · have announces := announced request rfl
    rw [worked_of_announced announces.path rfl] at grows ⊢
    refine ⟨rfl, by rintro _ ⟨⟩, ?_⟩
    intro path written
    rcases wrote : tree.writtenInto request.path request.declaration.text with
      ⟨error | result, after⟩
    · rw [wrote] at written
      cases written
    · rw [wrote] at written grows
      cases written
      obtain ⟨rfl, read⟩ := FileTree.readFile_of_writtenInto wrote
      refine ⟨request, rfl, rfl, FileTree.readFile_of_grows read grows ?_⟩
      exact fun place head => kept place ⟨request, rfl, head⟩

theorem holds_workedAll (announced : ∀ entry ∈ plan, Announced layout entry)
    (apart : plan.Pairwise Apart)
    (kept : ∀ entry ∈ plan, ∀ place, IsOutput entry place → ¬ changed place)
    (grows : Grows changed (workedAll layout printed plan tree).2 later) :
    List.Forall₂ (Holds later) plan (workedAll layout printed plan tree).1 := by
  induction plan generalizing tree with
  | nil => exact .nil
  | cons entry rest ih =>
      rw [List.forall_mem_cons] at announced kept
      rw [List.pairwise_cons] at apart
      obtain ⟨elsewhere, keptHere, growsOn⟩ := exists_grows_of_cons announced.2 apart.1 kept.1 grows
      exact .cons (holds_worked announced.1 keptHere growsOn) (ih announced.2 apart.2 kept.2 grows)

end Run

namespace CommandLine

open Run (Site Summary)

/-! ## Output -/

/-- The lines about the models of a report that are written. -/
def wroteLines (report : Report) : List String :=
  report.succeeded.map fun (id, path) => wroteLine id path

/-- The lines about the models of a report that failed. -/
def failedLines (report : Report) : List String :=
  report.failures.map fun (id, failure) => failedLine id failure.message

/-- What is printed about the models of a graph, and what a tree holds for them. -/
structure Accounts (settings : Settings) (graph : Source.Graph) (report : Report)
    (output : Output) (tree : FileTree) : Prop where
  /-- There is one outcome for each model, in the order of the models. -/
  ids : report.ids = graph.models.map ModelId.ofModel
  outcomes : List.Forall₂ (Run.Holds tree) (Plan.ofGraph settings.context graph) report.outcomes
  /-- Each model is listed once. -/
  listed : (report.succeeded.map (·.1) ++ report.failures.map (·.1)).Perm report.ids
  wroteInOrder : (report.succeeded.map (·.1)).Sublist report.ids
  failedInOrder : (report.failures.map (·.1)).Sublist report.ids
  code : output.code = 0 ↔ ∀ outcome ∈ report.outcomes, ∃ path, outcome.result = .ok path
  complete : report.failures = [] → output.stderr = "" ∧ ∃ elapsed : Nat,
    output.stdout = lines (openingLine settings :: wroteLines report ++
      ["Generated " ++ toString graph.size ++ " files in " ++ toString elapsed ++ "ms"])
  incomplete : report.failures ≠ [] → output.code = 1 ∧
    output.stdout = lines (openingLine settings :: wroteLines report) ∧
    output.stderr = lines (failedLines report ++
      [toString report.failures.length ++ " of " ++ toString graph.size ++ " models failed"])

/-- The exit code and the output of a command hide no failure, and a command that fails before it
has a graph leaves the site as it was. -/
structure HidesNoFailure (flags : Settings.Flags) {σ : Type} (site : Site σ)
    (ran : Output × Site σ) : Prop where
  unresolved : ∀ error, Settings.resolved site.files flags = .error error →
    ran.1.code = 2 ∧ ran.2 = site
  unloaded : ∀ settings error, Settings.resolved site.files flags = .ok settings →
    settings.renderer = .local →
    Source.Graph.loaded site.files settings.source = .error error →
      ran.1.code = 1 ∧ ran.2 = site
  generated : ∀ settings graph, Settings.resolved site.files flags = .ok settings →
    settings.renderer = .local →
    Source.Graph.loaded site.files settings.source = .ok graph →
      ∃ report, Accounts settings graph report ran.1 ran.2.files

theorem lines_cons (text : String) (texts : List String) :
    lines (text :: texts) = line text ++ lines texts := by
  simp [lines]

theorem failures_eq_nil_iff {report : Report} :
    report.failures = [] ↔ ∀ outcome ∈ report.outcomes, ∃ path, outcome.result = .ok path := by
  rw [Report.failures, List.filterMap_eq_nil_iff]
  apply forall₂_congr
  intro outcome _
  cases outcome.result <;> simp

theorem reportRun_of_complete {summary : Summary} (none : summary.report.failures = []) :
    reportRun summary =
      { stdout := lines (wroteLines summary.report ++
          ["Generated " ++ toString summary.report.outcomes.length ++ " files in " ++
            toString summary.elapsed ++ "ms"]) } :=
  if_pos (by rw [none]; rfl)

theorem reportRun_of_incomplete {summary : Summary} (some : summary.report.failures ≠ []) :
    reportRun summary =
      { code := 1
        stdout := lines (wroteLines summary.report)
        stderr := lines (failedLines summary.report ++
          [toString summary.report.failures.length ++ " of " ++
            toString summary.report.outcomes.length ++ " models failed"]) } := by
  have listed : ¬ (failedLines summary.report).isEmpty = true := by
    rw [List.isEmpty_iff, failedLines, List.map_eq_nil_iff]
    exact some
  have length : (failedLines summary.report).length = summary.report.failures.length :=
    List.length_map _
  rw [← length]
  exact if_neg listed

theorem accounts_reportGenerate {settings : Settings} {graph : Source.Graph} {summary : Summary}
    {tree : FileTree} (outcomes : List.Forall₂ (Run.Holds tree)
      (Plan.ofGraph settings.context graph) summary.report.outcomes) :
    Accounts settings graph summary.report (reportGenerate settings (.ok summary)) tree := by
  have ids : summary.report.ids = graph.models.map ModelId.ofModel := by
    rw [← Plan.ofGraph_map_id settings.context, Report.ids, ← List.forall₂_eq_eq_eq,
      List.forall₂_map_left_iff, List.forall₂_map_right_iff]
    exact (outcomes.imp fun _ _ holds => holds.id).flip
  have length : summary.report.outcomes.length = graph.size := by
    have lengths := congrArg List.length ids
    rwa [Report.ids, List.length_map, List.length_map, graph.length_models] at lengths
  have complete (none : summary.report.failures = []) :
      reportGenerate settings (.ok summary) =
        { stdout := lines (openingLine settings :: wroteLines summary.report ++
            ["Generated " ++ toString graph.size ++ " files in " ++ toString summary.elapsed ++
              "ms"]) } := by
    rw [List.cons_append, lines_cons, reportGenerate, reportRun_of_complete none, length]
  have incomplete (some : summary.report.failures ≠ []) :
      reportGenerate settings (.ok summary) =
        { code := 1
          stdout := lines (openingLine settings :: wroteLines summary.report)
          stderr := lines (failedLines summary.report ++
            [toString summary.report.failures.length ++ " of " ++ toString graph.size ++
              " models failed"]) } := by
    rw [lines_cons, reportGenerate, reportRun_of_incomplete some, length]
  exact {
    ids
    outcomes
    listed := summary.report.succeeded_append_failures_perm
    wroteInOrder := summary.report.succeeded_sublist
    failedInOrder := summary.report.failures_sublist
    code := by
      rw [← failures_eq_nil_iff]
      by_cases none : summary.report.failures = []
      · rw [complete none]
        exact ⟨fun _ => none, fun _ => rfl⟩
      · rw [incomplete none]
        exact ⟨fun zero => absurd zero Nat.one_ne_zero, fun empty => absurd empty none⟩
    complete := by
      intro none
      rw [complete none]
      exact ⟨rfl, summary.elapsed, rfl⟩
    incomplete := by
      intro some
      rw [incomplete some]
      exact ⟨rfl, rfl, rfl⟩ }

/-- With the renderer of the library, the command that generates files hides no failure, whatever
the flags and the files are. -/
theorem generate_hidesNoFailure (flags : Settings.Flags) {σ : Type}
    (send : Http.Post → StateM σ Http.Exchange) (site : Site σ) :
    HidesNoFailure flags site (Command.ran .generate flags send site) where
  unresolved := by
    intro error failed
    rw [Command.ran_of_error failed]
    exact ⟨rfl, rfl⟩
  unloaded := by
    intro settings error resolved _ failed
    rw [Command.ran_of_ok resolved, Command.worked_generate_of_error failed]
    exact ⟨rfl, rfl⟩
  generated := by
    intro settings graph resolved inProcess loaded
    have performed : performAt send settings =
        Site.perform Renderer.inProcess settings.context.layout settings.options := by
      rw [performAt, inProcess]
    obtain ⟨outcomes, state⟩ := Run.perform_inProcess settings.context.layout settings.options
      (Plan.ofGraph settings.context graph) site
    rw [Command.ran_of_ok resolved, Command.worked_generate_of_ok loaded, performed]
    refine ⟨_, accounts_reportGenerate ?_⟩
    rw [outcomes, state]
    have unchanged (tree : FileTree) : FileTree.Grows (fun _ => False) tree tree := .refl tree
    exact Run.holds_workedAll (Run.announced_ofGraph settings.context graph)
      (Run.pairwise_apart_ofGraph settings.context graph) (fun _ _ _ _ => not_false) (unchanged _)

/-- One of two models is written and the other is blocked. -/
theorem generate_hidesNoFailure_crowded :
    let flags : Settings.Flags :=
      { source := some "g.json", output := some "out", renderer := some .local }
    let ran := Command.ran .generate flags (fun _ => pure .dropped) Run.crowded
    ran.1 = {
      code := 1
      stdout := lines ["Generating TypeScript from g.json into out",
        "  wrote A (model): out/models/a.model.ts"]
      stderr := lines ["  failed B (enum): emit failed: Failed to write out/enums: " ++
        "File exists (os error 17)", "1 of 2 models failed"] } ∧
    ∃ settings graph report, Settings.resolved Run.crowded.files flags = .ok settings ∧
      Source.Graph.loaded Run.crowded.files settings.source = .ok graph ∧ graph.size = 2 ∧
      Accounts settings graph report ran.1 ran.2.files := by
  intro flags ran
  refine ⟨by decide +kernel, ?_⟩
  let settings : Settings := {
    source := ⟨"g.json"⟩
    context := { layout := { root := ⟨"out"⟩ } }
    renderer := .local
    url := Rendering.Service.defaultUrl
    options := {} }
  have resolved : Settings.resolved Run.crowded.files flags = .ok settings := by decide +kernel
  have evaluated : (Source.Graph.loaded Run.crowded.files settings.source).map Source.Graph.size =
      .ok 2 := by decide +kernel
  obtain ⟨graph, loaded, size⟩ := Except.map_eq_ok_iff.mp evaluated
  obtain ⟨report, accounts⟩ := (generate_hidesNoFailure flags (fun _ => pure .dropped)
    Run.crowded).generated settings graph resolved rfl loaded
  exact ⟨settings, graph, report, resolved, loaded, size, accounts⟩

end CommandLine

end ApiBindings
