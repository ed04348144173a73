import ApiBindings.Proofs.Binding.Imports
import ApiBindings.Proofs.Layout.ImportTarget
import ApiBindings.Proofs.Plan.Announcement
import ApiBindings.Settings

/-!
# Imports between the files of a plan

Whether an import finds the file that a plan has for the imported model.  Both paths come from the
table of directories, but import paths count on directories that are right below the root.  The
settings accept deeper ones.
-/

namespace ApiBindings.Plan

open Target (Import Provides)

variable {context : Binding.Context}

/-- A model with a request that depends on another model has an import of it, which leads to the
file of that model unless it has to leave a directory of several names. -/
theorem exists_import_leadsTo_iff {graph : Source.Graph} {index : Nat} {entry other : Entry}
    {model : Source.Model} {request target : Request} {reference : Source.TypeReference}
    (ordinary : ∀ category, Layout.IsOrdinaryDirectory (context.layout.directory category))
    (found : graph.models[index]? = some model)
    (listed : (ofGraph context graph)[index]? = some entry) (kept : entry.request = .ok request)
    (depends : model.DependsOn reference) (foreign : reference.name ∉ Binding.ownNames model)
    (member : other ∈ ofGraph context graph)
    (same : other.id = ⟨reference.name, reference.kind.category⟩)
    (keptToo : other.request = .ok target) :
    ∃ path, Provides request.declaration.imports path reference.name ∧
      context.layout.importPath? entry.id.category reference.name reference.kind.category =
        some path ∧
      (request.path.ImportLeadsTo path target.path ↔
        context.layout.directory entry.id.category =
            context.layout.directory reference.kind.category ∨
          (Path.parts ⟨context.layout.directory entry.id.category⟩).length = 1) := by
  obtain ⟨own, foundOwn, id, made, -⟩ := ofGraph_ok context listed kept
  obtain rfl := Option.some.inj (found.symm.trans foundOwn)
  obtain ⟨position, listedToo⟩ := List.mem_iff_getElem?.mp member
  obtain ⟨dependency, -, ids, madeToo, -⟩ := ofGraph_ok context listedToo keptToo
  obtain ⟨category, -, valid, foundFile⟩ := announced_of_ofModel made
  obtain ⟨-, -, validToo, foundTarget⟩ := announced_of_ofModel madeToo
  rw [← ids, same] at validToo foundTarget
  obtain ⟨bound, declared, -⟩ := ofModel_eq_ok made
  obtain ⟨references, collected, adds⟩ := Binding.adds_of_bind bound
  rw [← declared, category, ← id] at adds
  rw [← id] at valid foundFile
  have needed := (collected reference).mpr depends
  obtain ⟨path, resolved⟩ := adds.resolved reference needed foreign
  have provided := (adds.provides path reference.name).mpr
    (.inr ⟨reference, needed, rfl, foreign, resolved⟩)
  exact ⟨path, provided, resolved, Layout.importLeadsTo_of_filePath? (ordinary _) (ordinary _)
    valid validToo foundFile foundTarget resolved⟩

/-! ## An order and its status -/

/-- A class and an enumeration it refers to. -/
def orderGraph : Source.Graph := {
  classes := [{ name := "Order", properties := [⟨"Status", .reference "Status" .enum []⟩] }]
  enums := [{ name := "Status", members := [{ name := "Open" }] }] }

/-- What an entry with a request comes to: whose it is, its file and its imports. -/
def Entry.summary? (entry : Entry) : Option (ModelId × Path × List Import) :=
  entry.request.toOption.map fun request =>
    (entry.id, request.path, request.declaration.imports)

theorem Entry.summary?_eq_some {entry : Entry} {id : ModelId} {path : Path} {imports : List Import}
    (told : entry.summary? = some (id, path, imports)) :
    ∃ request, entry = ⟨id, .ok request⟩ ∧ request.path = path ∧
      request.declaration.imports = imports := by
  obtain ⟨own, error | request⟩ := entry
  · cases told
  · cases told
    exact ⟨request, rfl, rfl, rfl⟩

/-- The requests for an order and its status, from what they come to. -/
theorem exists_requests {first second : ModelId × Path × List Import} {plan : List Entry}
    (told : plan.map Entry.summary? = [some first, some second]) :
    ∃ request target, plan = [⟨first.1, .ok request⟩, ⟨second.1, .ok target⟩] ∧
      request.path = first.2.1 ∧ request.declaration.imports = first.2.2 ∧
      target.path = second.2.1 := by
  obtain ⟨entry, rest, rfl, toldEntry, toldRest⟩ := List.map_eq_cons_iff.mp told
  obtain ⟨other, last, rfl, toldOther, toldLast⟩ := List.map_eq_cons_iff.mp toldRest
  obtain rfl := List.map_eq_nil_iff.mp toldLast
  obtain ⟨request, rfl, path, imports⟩ := Entry.summary?_eq_some toldEntry
  obtain ⟨target, rfl, targetPath, -⟩ := Entry.summary?_eq_some toldOther
  exact ⟨request, target, rfl, path, imports, targetPath⟩

/-- However deep the directory of the status is, an order right below the root finds it. -/
theorem exists_import_leadsTo_order :
    let context : Binding.Context :=
      { layout := { root := ⟨"../out"⟩, enums := "shared/enums" } }
    ∃ request target path,
      (ofGraph context orderGraph).map (·.request) = [.ok request, .ok target] ∧
        Provides request.declaration.imports path "Status" ∧
        request.path.ImportLeadsTo path target.path := by
  intro context
  have told : (ofGraph context orderGraph).map Entry.summary? = [
      some (⟨"Order", .model⟩, ⟨"../out/models/order.model.ts"⟩,
        [⟨["Status"], "../shared/enums/status.enum"⟩]),
      some (⟨"Status", .enum⟩, ⟨"../out/shared/enums/status.enum.ts"⟩, [])] := by
    decide +kernel
  obtain ⟨request, target, plan, -⟩ := exists_requests told
  have ordinary : ∀ category, Layout.IsOrdinaryDirectory (context.layout.directory category) := by
    intro category
    cases category <;> decide +kernel
  have listed : (ofGraph context orderGraph)[0]? = some ⟨⟨"Order", .model⟩, .ok request⟩ := by
    rw [plan]
    rfl
  have member : ⟨⟨"Status", .enum⟩, .ok target⟩ ∈ ofGraph context orderGraph := by simp [plan]
  have depends : Source.Model.DependsOn
      (.ofClass { name := "Order", properties := [⟨"Status", .reference "Status" .enum []⟩] })
      ⟨"Status", .enum⟩ :=
    .inl (.property (List.mem_singleton.mpr rfl) (.here []))
  obtain ⟨path, provided, -, leads⟩ := exists_import_leadsTo_iff ordinary rfl listed rfl depends
    (by decide) member rfl rfl
  have below : (Path.parts ⟨context.layout.directory .model⟩).length = 1 := by decide +kernel
  refine ⟨request, target, path, ?_, provided, leads.mpr (.inr below)⟩
  rw [plan]
  rfl

/-- Directories of several names are accepted, and imports between files in them lead astray. -/
theorem not_import_leadsTo_deep :
    let directories : Settings.DirectoryChoices :=
      { models := some "app/models", enums := some "app/enums" }
    let layout : Layout :=
      { root := ⟨"generated"⟩, models := "app/models", enums := "app/enums" }
    (Settings.ofFlags { source := some "graph.json" } { directories }).map (·.context.layout) =
        .ok layout ∧
      (∀ category, Layout.IsOrdinaryDirectory (layout.directory category)) ∧
      ∃ request target,
        (ofGraph { layout } orderGraph).map (·.request) = [.ok request, .ok target] ∧
          request.declaration.imports = [⟨["Status"], "../app/enums/status.enum"⟩] ∧
          ¬ request.path.ImportLeadsTo "../app/enums/status.enum" target.path := by
  intro directories layout
  have told : (ofGraph { layout } orderGraph).map Entry.summary? = [
      some (⟨"Order", .model⟩, ⟨"generated/app/models/order.model.ts"⟩,
        [⟨["Status"], "../app/enums/status.enum"⟩]),
      some (⟨"Status", .enum⟩, ⟨"generated/app/enums/status.enum.ts"⟩, [])] := by
    decide +kernel
  obtain ⟨request, target, plan, path, imports, targetPath⟩ := exists_requests told
  have ordinary : ∀ category, Layout.IsOrdinaryDirectory (layout.directory category) := by
    intro category
    cases category <;> decide +kernel
  refine ⟨by rfl, ordinary, request, target, by rw [plan]; rfl, imports, ?_⟩
  have file : layout.filePath? "Order" .model = some request.path := by
    rw [path]
    decide +kernel
  have targetFile : layout.filePath? "Status" .enum = some target.path := by
    rw [targetPath]
    decide +kernel
  have way : layout.importPath? .model "Status" .enum = some "../app/enums/status.enum" := by
    decide +kernel
  rw [Layout.importLeadsTo_of_filePath? (ordinary _) (ordinary _) (by decide) (by decide) file
    targetFile way]
  decide +kernel

end ApiBindings.Plan
