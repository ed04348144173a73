import ApiBindings.Proofs.FileTree.Obstacles
import ApiBindings.Proofs.Run.Sequence
import ApiBindings.Proofs.Source.Loading
import ApiBindings.Settings

/-!
# Generating again

Another run with the same settings leaves the files as the first left them, and reports what the
first reported.  The file of the graph is not generated, each generated file is written for one
model only, and whatever kept a file from being written still does.  One report may differ: where a
path turns back, a file may be hidden behind a directory that the first run creates, and the second
run meets it on the way.
-/

namespace ApiBindings.Run

open FileTree (Grows)

variable {layout : Layout} {render : Request → Rendered} {tree later : FileTree}
  {changed : Location → Prop} {entry : Plan.Entry} {plan : List Plan.Entry}

/-- What is reported for a model in another run, when the first reported an outcome. -/
inductive Recurs : Outcome → Outcome → Prop where
  | same (outcome : Outcome) : Recurs outcome outcome
  /-- A file in the way of a path that turns back is met where a directory was missing before. -/
  | hidden (id : ModelId) {directory : Path} (back : ['.', '.'] ∈ directory.parts) :
      Recurs ⟨id, .error (.emission ⟨directory, .alreadyExists⟩)⟩
        ⟨id, .error (.emission ⟨directory, .notADirectory⟩)⟩

/-! ## Single entries -/

/-- Only a path that turns back has a file hidden on its way. -/
theorem mem_parts_of_hidden (sound : tree.IsSound) {directory : Path}
    (hidden : tree.Hidden (tree.start directory) directory.steps) :
    ['.', '.'] ∈ directory.parts := by
  by_cases back : ['.', '.'] ∈ directory.steps
  · rw [Path.parts_eq_append_steps]
    exact List.mem_append_right _ back
  · refine absurd hidden (FileTree.not_hidden sound ?_)
    intro step member
    exact ⟨Path.isIdle_of_mem_steps member, ne_of_mem_of_not_mem member back⟩

/-- The work on an entry that is done again changes nothing, and its outcome recurs. -/
theorem worked_again (announced : Announced layout entry) (sound : tree.IsSound)
    (kept : ∀ place, IsOutput entry place → ¬ changed place)
    (grows : Grows changed (worked layout render entry tree).2 later) :
    (worked layout render entry later).2 = later ∧
      Recurs (worked layout render entry tree).1 (worked layout render entry later).1 := by
  obtain ⟨id, error | request⟩ := entry
  · exact ⟨rfl, .same _⟩
  · cases rendered : render request with
    | error error =>
        rw [worked_of_unrendered rendered, worked_of_unrendered rendered]
        exact ⟨rfl, .same _⟩
    | ok text =>
        have announces := announced request rfl
        obtain ⟨stem, -, ends, fileName⟩ := announces.endsIn
        obtain ⟨parent, found⟩ := ends.exists_parent?
        rw [worked_of_announced announces.path rendered] at grows ⊢
        rw [worked_of_announced announces.path rendered]
        obtain ⟨still, same | ⟨hidden, first, second⟩⟩ :=
          FileTree.writtenInto_again ends found
            (fun place head => kept place ⟨request, rfl, by rw [fileName, head]⟩) grows
        · rw [same]
          exact ⟨still, .same _⟩
        · rw [first, second]
          exact ⟨still, .hidden id (mem_parts_of_hidden sound hidden)⟩

/-! ## Plans -/

/-- Two entries have requests for files of different names. -/
def Apart (first second : Plan.Entry) : Prop :=
  ∀ place, IsOutput first place → ¬ IsOutput second place

theorem grows_workedAll (render : Request → Rendered)
    (announced : ∀ entry ∈ plan, Announced layout entry) (tree : FileTree) :
    Grows (fun place => ∃ entry ∈ plan, IsOutput entry place) tree
      (workedAll layout render plan tree).2 := by
  induction plan generalizing tree with
  | nil => exact .refl tree
  | cons entry rest ih =>
      rw [List.forall_mem_cons] at announced
      apply Grows.trans
      · apply (grows_worked render announced.1 tree).mono
        intro place own
        exact ⟨entry, by simp, own⟩
      · apply (ih announced.2 _).mono
        rintro place ⟨other, member, own⟩
        exact ⟨other, by simp [member], own⟩

/-- What is done after an entry leaves its file alone: the other entries write at other places. -/
theorem exists_grows_of_cons (announced : ∀ entry ∈ plan, Announced layout entry)
    (apart : ∀ other ∈ plan, Apart entry other)
    (kept : ∀ place, IsOutput entry place → ¬ changed place)
    (grows : Grows changed (workedAll layout render (entry :: plan) tree).2 later) :
    ∃ elsewhere : Location → Prop, (∀ place, IsOutput entry place → ¬ elsewhere place) ∧
      Grows elsewhere (worked layout render entry tree).2 later := by
  refine ⟨fun place => (∃ other ∈ plan, IsOutput other place) ∨ changed place, ?_, ?_⟩
  · rintro place own (⟨other, member, claimed⟩ | later)
    · exact apart other member place own claimed
    · exact kept place own later
  · have growsRest := grows_workedAll render announced (worked layout render entry tree).2
    exact (growsRest.mono fun _ => .inl).trans (grows.mono fun _ => .inr)

/-- The work on a plan that is done again changes nothing, and its outcomes recur. -/
theorem workedAll_again (announced : ∀ entry ∈ plan, Announced layout entry)
    (apart : plan.Pairwise Apart) (sound : tree.IsSound)
    (kept : ∀ entry ∈ plan, ∀ place, IsOutput entry place → ¬ changed place)
    (grows : Grows changed (workedAll layout render plan tree).2 later) :
    (workedAll layout render plan later).2 = later ∧
      List.Forall₂ Recurs (workedAll layout render plan tree).1
        (workedAll layout render plan later).1 := by
  induction plan generalizing tree with
  | nil => exact ⟨rfl, .nil⟩
  | cons entry rest ih =>
      rw [List.forall_mem_cons] at announced kept
      rw [List.pairwise_cons] at apart
      obtain ⟨elsewhere, keptHere, growsOn⟩ := exists_grows_of_cons announced.2 apart.1 kept.1 grows
      obtain ⟨still, recurs⟩ := worked_again announced.1 sound keptHere growsOn
      obtain ⟨stillRest, others⟩ := ih announced.2 apart.2
        (isSound_worked render announced.1 sound) kept.2 grows
      rw [workedAll, workedAll, still]
      exact ⟨stillRest, .cons recurs others⟩

/-! ## Runs -/

section Runs

variable (context : Binding.Context)

/-- No two models of a graph have files of one name. -/
theorem pairwise_apart_ofGraph (graph : Source.Graph) :
    (Plan.ofGraph context graph).Pairwise Apart := by
  rw [List.pairwise_iff_getElem]
  rintro index position inside insideLater later place ⟨request, kept, head⟩ ⟨other, keptToo, same⟩
  have distinct := Plan.not_same_of_lt context later (List.getElem?_eq_getElem inside)
    (List.getElem?_eq_getElem insideLater) kept keptToo
  apply Plan.fileName?_ne_of_not_same
    (Plan.announces_of_mem context (List.getElem_mem inside) kept)
    (Plan.announces_of_mem context (List.getElem_mem insideLater) keptToo) distinct
  rw [← head, same]

/-- No model has a file of the name of a graph file. -/
theorem not_isOutput_of_extension {graph : Source.Graph} {source : Path}
    (extension : source.extension? = some "json") (member : entry ∈ Plan.ofGraph context graph)
    {place : Location} (head : place.head? = source.fileName?) : ¬ IsOutput entry place := by
  rintro ⟨request, kept, output⟩
  obtain ⟨stem, -, -, fileName⟩ := (Plan.announces_of_mem context member kept).endsIn
  rw [head, fileName] at output
  simp only [Path.extension?, output, bind, Option.bind, Layout.extensionOf?_fileNameOf, pure,
    Option.some.injEq] at extension
  exact absurd extension (by decide)

variable {σ : Type} {source : Path} {site : Site σ}

/-- A run that renders in the process, from the file of a graph to those that are generated. -/
def generate (options : Options) (source : Path) :
    StateM (Site σ) (Except Source.LoadError Summary) :=
  ofFile (Site.perform Renderer.inProcess context.layout options) context source

theorem run_generate_of_error (options : Options) {error : Source.LoadError}
    (failed : Source.Graph.loaded site.files source = .error error) :
    StateT.run (m := Id) (generate context options source) site = (.error error, site) := by
  rw [generate, ofFile, FileTree.run_bind, Source.Graph.run_load, failed]
  rfl

theorem run_generate_of_ok (options : Options) (site : Site σ) {graph : Source.Graph}
    (loaded : Source.Graph.loaded site.files source = .ok graph) :
    ∃ summary : Summary,
      StateT.run (m := Id) (generate context options source) site =
        (.ok summary, ⟨site.renderer,
          (workedAll context.layout printed (Plan.ofGraph context graph) site.files).2⟩) ∧
      summary.report.outcomes =
        (workedAll context.layout printed (Plan.ofGraph context graph) site.files).1 := by
  obtain ⟨outcomes, state⟩ :=
    perform_inProcess context.layout options (Plan.ofGraph context graph) site
  refine ⟨_, ?_, outcomes⟩
  rw [generate, ofFile, FileTree.run_bind, Source.Graph.run_load, loaded, ← state]
  rfl

/-- What a second run comes to after a first, in terms of the first. -/
structure Regenerates (site : Site σ) (first second : Except Source.LoadError Summary × Site σ) :
    Prop where
  /-- The second run changes nothing. -/
  files : second.2 = first.2
  /-- Without a graph nothing is changed at all, and both runs fail for the same reason. -/
  failed : ∀ error, first.1 = .error error → second.1 = .error error ∧ first.2 = site
  /-- Every outcome recurs, in the order of the models. -/
  outcomes : ∀ summary, first.1 = .ok summary → ∃ again : Summary, second.1 = .ok again ∧
    List.Forall₂ Recurs summary.report.outcomes again.report.outcomes

/-- To generate again changes no file, and what was reported for each model is reported again. -/
theorem generate_again (options : Options) (source : Path) (site : Site σ)
    (sound : site.files.IsSound) :
    let first := StateT.run (m := Id) (generate context options source) site
    let second := StateT.run (m := Id) (generate context options source) first.2
    Regenerates site first second := by
  intro first second
  cases loaded : Source.Graph.loaded site.files source with
  | error error =>
      have ran : first = (.error error, site) := run_generate_of_error context options loaded
      have again : second = first := by
        simp only [second, ran]
        exact run_generate_of_error context options loaded
      rw [again, ran]
      exact ⟨rfl, by rintro _ ⟨⟩; exact ⟨rfl, rfl⟩, by rintro _ ⟨⟩⟩
  | ok graph =>
      obtain ⟨extension, -⟩ := Source.Graph.exists_of_loaded loaded
      have announced := announced_ofGraph context graph
      have grows := grows_workedAll printed announced site.files
      have loadedAgain := Source.Graph.loaded_of_grows loaded grows fun place head own => by
        obtain ⟨entry, member, output⟩ := own
        exact not_isOutput_of_extension context extension member head output
      obtain ⟨still, recurs⟩ := workedAll_again announced (pairwise_apart_ofGraph context graph)
        sound (fun _ _ _ _ => not_false)
        (.refl _ : Grows (fun _ => False) (workedAll context.layout printed _ site.files).2 _)
      obtain ⟨summary, ran, outcomes⟩ := run_generate_of_ok context options site loaded
      have first_eq : first = (.ok summary, _) := ran
      obtain ⟨again, ranAgain, outcomesAgain⟩ :=
        run_generate_of_ok context options first.2 (by rw [first_eq]; exact loadedAgain)
      have second_eq : second = (.ok again, _) := ranAgain
      refine ⟨?_, by simp [first_eq], ?_⟩
      · rw [second_eq, first_eq]
        simp only [still]
      · intro kept same
        obtain rfl : summary = kept := by simpa [first_eq] using same
        refine ⟨again, by rw [second_eq], ?_⟩
        rw [outcomes, outcomesAgain, first_eq]
        exact recurs

/-- A graph of a class and an enumeration, in a tree that has a file in place of the directory for
enumerations. -/
def crowded : Site Unit where
  renderer := ()
  files := { entries :=
    [(["g.json".toList], .file
        "\x7b\"classes\":[\x7b\"name\":\"A\"\x7d],\"enums\":[\x7b\"name\":\"B\"\x7d]\x7d".toUTF8),
      (["out".toList], .directory), (["enums".toList, "out".toList], .file "text".toUTF8)] }

/-- The class is written and the enumeration is blocked, in both runs. -/
theorem generate_again_crowded :
    crowded.files.IsSound ∧
      let layout : Layout := { root := ⟨"out"⟩ }
      let first := StateT.run (m := Id) (generate { layout } {} ⟨"g.json"⟩) crowded
      let second := StateT.run (m := Id) (generate { layout } {} ⟨"g.json"⟩) first.2
      Regenerates crowded first second ∧
        first.1.map (·.report.succeeded) = .ok [(⟨"A", .model⟩, ⟨"out/models/a.model.ts"⟩)] ∧
        first.1.map (·.report.failures) =
          .ok [(⟨"B", .enum⟩, .emission ⟨⟨"out/enums"⟩, .alreadyExists⟩)] :=
  ⟨by decide, generate_again _ _ _ _ (by decide), by decide +kernel, by decide +kernel⟩

/-- A tree whose settings file leads models past a directory that is missing and back to a file. -/
def turning : Site Unit where
  renderer := ()
  files := { entries :=
    [(["g.json".toList], .file "\x7b\"classes\":[\x7b\"name\":\"A\"\x7d]\x7d".toUTF8),
      (["typesync.toml".toList], .file "[layout]\nmodels = \"m/../f/x\"".toUTF8),
      (["out".toList], .directory), (["f".toList, "out".toList], .file "text".toUTF8)] }

/-- A file behind a directory that is missing is reported otherwise once the directory is there. -/
theorem generate_again_hidden :
    let flags : Settings.Flags :=
      { source := some "g.json", output := some "out", renderer := some .local }
    let layout : Layout := { root := ⟨"out"⟩, models := "m/../f/x" }
    let first := StateT.run (m := Id) (generate { layout } {} ⟨"g.json"⟩) turning
    let second := StateT.run (m := Id) (generate { layout } {} ⟨"g.json"⟩) first.2
    (StateT.run (m := Id) (Settings.resolve flags) turning).1.map
        (fun settings => (settings.source, settings.context, settings.options)) =
          .ok (⟨"g.json"⟩, { layout }, {}) ∧
      turning.files.IsSound ∧
      first.1.map (·.report.failures) =
        .ok [(⟨"A", .model⟩, .emission ⟨⟨"out/m/../f/x"⟩, .alreadyExists⟩)] ∧
      second.1.map (·.report.failures) =
        .ok [(⟨"A", .model⟩, .emission ⟨⟨"out/m/../f/x"⟩, .notADirectory⟩)] := by
  decide +kernel

end Runs

end ApiBindings.Run
