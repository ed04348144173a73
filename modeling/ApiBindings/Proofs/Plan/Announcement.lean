import ApiBindings.Proofs.Binding.Declared
import ApiBindings.Proofs.FileTree.Reading
import ApiBindings.Proofs.FileTree.Refusal
import ApiBindings.Proofs.Layout.FilePath
import ApiBindings.Proofs.Plan.Ownership
import ApiBindings.Proofs.Run.Outcomes

/-!
# Announced files

A request announces the path of its file, and once it is rendered the layout finds the path again
from the identity of the model.  Both are one path: binding keeps the name and the category of a
model.  The path ends in a name that nothing in the name of the model can lead out of its directory,
and that no other model with a request has.
-/

namespace ApiBindings.Plan

open Identifier (toFileCase)

/-- What writing the text of a model comes to on a file tree. -/
def emitOn (layout : Layout) (id : ModelId) (text : String) (tree : FileTree) :
    Except EmitError Path × FileTree :=
  StateT.run (m := Id) (layout.emit id text) tree

/-- A request announces the file that is written for a model. -/
structure Announces (layout : Layout) (id : ModelId) (request : Request) : Prop where
  category : request.category = id.category
  name : request.name = id.name
  path : layout.filePath? id.name id.category = some request.path
  /-- The file lies right in the directory of its category, under one ordinary name. -/
  placed : ∃ stem, toFileCase id.name = .ok stem ∧
    request.path.fileName? = some (Layout.fileNameOf stem id.category).toList ∧
    Path.IsOrdinary (Layout.fileNameOf stem id.category).toList ∧
    request.path.parts =
      (layout.directoryPath id.category).parts ++ [(Layout.fileNameOf stem id.category).toList]
  /-- To write for the model is to write to the path. -/
  emission : ∀ {m : Type → Type} [Monad m] [MonadFiles m] (text : String),
    (layout.emit id text : m (Except EmitError Path)) = writeInto request.path text
  /-- What was written for the model is found at the path. -/
  written : ∀ (text : String) (tree after : FileTree) (path : Path),
    emitOn layout id text tree = (.ok path, after) →
      path = request.path ∧ after.readFile request.path = .ok text.toUTF8
  /-- Only a layout can have the writing refused, by a NUL character in a directory. -/
  refused : ∀ (text : String) (tree : FileTree),
    (∃ error after, emitOn layout id text tree = (.error error, after) ∧
        error.cause.IsRefusal) ↔
      '\x00' ∈ (layout.directoryPath id.category).text.toList
  /-- Without backslashes, the path is the same on the wire. -/
  wire : '\\' ∉ request.path.text.toList →
    request.toJson = Json.ofMembers [("outputPath", Json.ofText request.path.text),
      ("dataModel", Request.declarationToJson request.declaration)]

/-- A run reports the announced path for an entry, and only refusals that its layout explains. -/
structure Reports (layout : Layout) (entry : Entry) (outcome : Outcome) : Prop where
  id : outcome.id = entry.id
  path : ∀ path, outcome.result = .ok path →
    ∃ request, entry.request = .ok request ∧ path = request.path
  refused : ∀ error, outcome.result = .error (.emission error) → error.cause.IsRefusal →
    '\x00' ∈ (layout.directoryPath entry.id.category).text.toList

/-- A plan whose requests announce the files that are written, each file for one model. -/
structure Truthful (layout : Layout) (plan : List Entry) : Prop where
  announced : ∀ entry ∈ plan, ∀ request, entry.request = .ok request →
    Announces layout entry.id request
  /-- No place in any tree belongs to the paths of two requests, also when the tree changes in
  between. -/
  apart : plan.Pairwise fun first second => ∀ request other,
    first.request = .ok request → second.request = .ok other →
      ∀ (tree later : FileTree) (place : Location),
        tree.place? request.path = some place → later.place? other.path ≠ some place
  reported : ∀ {σ : Type} (render : Renderer σ) (options : Run.Options) (site : Run.Site σ),
    List.Forall₂ (Reports layout) plan
      ((Run.Site.perform render layout options plan).run site).1.report.outcomes

/-! ## One request -/

/-- A request is a declaration that its model is bound to, and the file for it. -/
theorem ofModel_eq_ok {context : Binding.Context} {model : Source.Model} {request : Request}
    (own : Request.ofModel context model = .ok request) :
    Binding.bind context model = .ok request.declaration ∧
      request.category = request.declaration.category ∧
      context.layout.filePath? request.declaration.name request.declaration.category =
        some request.path := by
  obtain ⟨declaration, bound, placed⟩ := Except.bind_eq_ok_iff.mp own
  unfold Request.ofDeclaration at placed
  split at placed
  · rename_i path found
    cases placed
    exact ⟨bound, rfl, found⟩
  · cases placed

theorem announced_of_ofModel {context : Binding.Context} {model : Source.Model} {request : Request}
    (own : Request.ofModel context model = .ok request) :
    request.category = (ModelId.ofModel model).category ∧
      request.name = (ModelId.ofModel model).name ∧
      Identifier.isValid (ModelId.ofModel model).name = true ∧
      context.layout.filePath? (ModelId.ofModel model).name (ModelId.ofModel model).category =
        some request.path := by
  obtain ⟨bound, placed, found⟩ := ofModel_eq_ok own
  obtain ⟨name, valid, category⟩ := Binding.declared_of_bind bound
  rw [ofModel_name, ← category, ← name]
  exact ⟨placed, rfl, name ▸ valid, found⟩

theorem wirePath_of_not_mem {path : Path} (plain : '\\' ∉ path.text.toList) :
    Request.wirePath path = path.text := by
  have kept : path.text.toList.map (fun c => if c == '\\' then '/' else c) = path.text.toList := by
    refine (List.map_congr_left ?_).trans (List.map_id _)
    intro c member
    have apart : c ≠ '\\' := ne_of_mem_of_not_mem member plain
    simp [apart]
  rw [Request.wirePath, kept, String.ofList_toList]

section Emission

variable {layout : Layout} {id : ModelId} {path : Path}
  (found : layout.filePath? id.name id.category = some path)

include found

theorem emit_eq_writeInto {m : Type → Type} [Monad m] [MonadFiles m] (text : String) :
    (layout.emit id text : m (Except EmitError Path)) = writeInto path text := by
  rw [Layout.emit, found]

theorem emitOn_eq_writtenInto (text : String) (tree : FileTree) :
    emitOn layout id text tree = tree.writtenInto path text := by
  rw [emitOn, emit_eq_writeInto found]
  exact FileTree.run_writeInto tree path text

/-- The emission for an identity is refused for its directory, or not at all. -/
theorem emit_refused_iff (valid : Identifier.isValid id.name = true) (text : String)
    (tree : FileTree) :
    (∃ error after, emitOn layout id text tree = (.error error, after) ∧
        error.cause.IsRefusal) ↔
      '\x00' ∈ (layout.directoryPath id.category).text.toList := by
  obtain ⟨stem, cased, -, ordinary, parts⟩ := Layout.exists_stem_of_filePath? valid found
  rw [emitOn_eq_writtenInto found]
  constructor
  · rintro ⟨error, after, failed, refusal⟩
    have nul := FileTree.mem_of_writtenInto_isRefusal (by rw [failed]) refusal
    rw [Path.mem_iff_mem_parts (by decide) (by decide)] at nul ⊢
    obtain ⟨part, member, inPart⟩ := nul
    rw [parts, List.mem_append, List.mem_singleton] at member
    rcases member with directory | rfl
    · exact ⟨part, directory, inPart⟩
    · have spelled := Identifier.isFilePart_of_toFileCase valid cased
      rcases Layout.mem_fileNameOf spelled inPart with plain | dot
      · exact absurd plain (by decide)
      · exact absurd dot (by decide)
  · intro nul
    obtain ⟨part, member, inPart⟩ := (Path.mem_iff_mem_parts (by decide) (by decide) _).mp nul
    have around : part ∈ path.parts.dropLast := by simpa [parts] using member
    obtain ⟨directory, -, refused⟩ :=
      FileTree.writtenInto_of_mem_dropLast around inPart tree text
    exact ⟨_, _, refused, trivial⟩

end Emission

/-- The request of a model announces the file that is written for it. -/
theorem announces_of_ofModel {context : Binding.Context} {model : Source.Model} {request : Request}
    (own : Request.ofModel context model = .ok request) :
    Announces context.layout (.ofModel model) request := by
  obtain ⟨category, name, valid, found⟩ := announced_of_ofModel own
  exact {
    category, name
    path := found
    placed := Layout.exists_stem_of_filePath? valid found
    emission := fun text => emit_eq_writeInto found text
    written := by
      intro text tree after path emitted
      rw [emitOn_eq_writtenInto found] at emitted
      exact FileTree.readFile_of_writtenInto emitted
    refused := fun text tree => emit_refused_iff found valid text tree
    wire := by
      intro plain
      rw [Request.toJson, wirePath_of_not_mem plain] }

/-! ## Two requests -/

theorem Announces.endsIn {layout : Layout} {id : ModelId} {request : Request}
    (announced : Announces layout id request) :
    ∃ stem, request.path = (layout.directoryPath id.category).join
        (Layout.fileNameOf stem id.category) ∧
      request.path.EndsIn (Layout.fileNameOf stem id.category).toList ∧
      request.path.fileName? = some (Layout.fileNameOf stem id.category).toList := by
  obtain ⟨stem, cased, spelled⟩ := Layout.filePath?_eq_some_iff.mp announced.path
  obtain ⟨other, otherCased, fileName, ordinary, -⟩ := announced.placed
  obtain rfl := Except.ok.inj (otherCased.symm.trans cased)
  have ends := Path.endsIn_join ordinary (layout.directoryPath id.category)
  rw [String.ofList_toList, ← spelled] at ends
  exact ⟨other, spelled, ends, fileName⟩

/-- Requests for different paths are for files of different names. -/
theorem fileName?_ne_of_not_same {layout : Layout} {first second : ModelId}
    {request other : Request} (announced : Announces layout first request)
    (announcedOther : Announces layout second other)
    (distinct : ¬ request.path.same other.path) :
    request.path.fileName? ≠ other.path.fileName? := by
  intro equal
  obtain ⟨stem, spelled, -, fileName⟩ := announced.endsIn
  obtain ⟨otherStem, otherSpelled, -, otherFileName⟩ := announcedOther.endsIn
  have same : Layout.fileNameOf stem first.category = Layout.fileNameOf otherStem second.category :=
    String.toList_inj.mp (Option.some.inj (fileName.symm.trans (equal.trans otherFileName)))
  obtain ⟨rfl, category⟩ := Layout.fileNameOf_inj.mp same
  rw [spelled, otherSpelled, category] at distinct
  exact distinct (Path.same_iff.mpr rfl)

/-- Such requests are for files at different places. -/
theorem place?_ne_of_not_same {layout : Layout} {first second : ModelId} {request other : Request}
    (announced : Announces layout first request) (announcedOther : Announces layout second other)
    (distinct : ¬ request.path.same other.path) {tree later : FileTree} {place : Location}
    (reached : tree.place? request.path = some place) : later.place? other.path ≠ some place := by
  intro reachedOther
  apply fileName?_ne_of_not_same announced announcedOther distinct
  rw [← FileTree.head?_of_place? reached, FileTree.head?_of_place? reachedOther]

/-! ## The plan as a whole -/

variable (context : Binding.Context)

theorem announces_of_mem {graph : Source.Graph} {entry : Entry} {request : Request}
    (member : entry ∈ ofGraph context graph) (kept : entry.request = .ok request) :
    Announces context.layout entry.id request := by
  obtain ⟨index, listed⟩ := List.mem_iff_getElem?.mp member
  obtain ⟨model, -, same, own, -⟩ := ofGraph_ok context listed kept
  rw [same]
  exact announces_of_ofModel own

theorem reports_of_concludes {σ : Type} {render : Renderer σ} {policy : RetryPolicy}
    {layout : Layout} {entry : Entry} {outcome : Outcome}
    (announced : ∀ request, entry.request = .ok request → Announces layout entry.id request)
    (concludes : Run.Concludes (Run.Site.tools render layout policy) entry outcome) :
    Reports layout entry outcome := by
  obtain ⟨id, result⟩ := outcome
  obtain ⟨same, possible⟩ := concludes
  cases possible with
  | unbound failed => exact ⟨same, by simp, by simp⟩
  | unrendered own => exact ⟨same, by simp, by simp⟩
  | @written request text site own =>
      have emitted : ((Run.Site.tools render layout policy).emit entry.id text).run site =
          ((emitOn layout entry.id text site.files).1, _) := rfl
      have written := (announced request own).written text site.files
      have refused := (announced request own).refused text site.files
      rw [emitted]
      rcases emission : emitOn layout entry.id text site.files with ⟨error | path, after⟩
      · refine ⟨same, by simp, ?_⟩
        intro other failed refusal
        cases failed
        exact refused.mp ⟨error, after, emission, refusal⟩
      · refine ⟨same, ?_, by simp⟩
        intro other succeeded
        cases succeeded
        exact ⟨request, own, (written after path emission).1⟩

/-- The files that are written for a plan are those its requests announce. -/
theorem ofGraph_truthful (graph : Source.Graph) :
    Truthful context.layout (ofGraph context graph) where
  announced := fun _ member _ kept => announces_of_mem context member kept
  apart := by
    rw [List.pairwise_iff_getElem]
    intro index position inside insideLater later request other kept keptLater tree after place
    have distinct := not_same_of_lt context later (List.getElem?_eq_getElem inside)
      (List.getElem?_eq_getElem insideLater) kept keptLater
    exact place?_ne_of_not_same (announces_of_mem context (List.getElem_mem inside) kept)
      (announces_of_mem context (List.getElem_mem insideLater) keptLater) distinct
  reported := by
    intro σ render options site
    have concluded := Run.forall₂_ofPlan (Run.Site.tools render context.layout options.retry)
      options.slots_pos (ofGraph context graph) site
    exact ((List.forall₂_and_left _ _).mpr
      ⟨fun _ member _ kept => announces_of_mem context member kept, concluded⟩).imp
        fun _ _ both => reports_of_concludes both.1 both.2

/-- The directories of a layout are not looked at before a file is written: one that no file can lie
in is found out about then. -/
theorem perform_refused_for_nul :
    let layout : Layout := { root := ⟨"a\x00b"⟩ }
    let plan := ofGraph { layout } { classes := [{ name := "A" }] }
    let site : Run.Site Unit := { renderer := (), files := {} }
    plan.map (·.request.isOk) = [true] ∧
      ((Run.Site.perform Renderer.inProcess layout {} plan).run site).1.report.failures =
        [(⟨"A", .model⟩, .emission
          ⟨⟨"a\x00b/models"⟩, .refused "file name contained an unexpected NUL byte"⟩)] := by
  decide +kernel

end ApiBindings.Plan
