import ApiBindings.Proofs.Binding.Declared
import ApiBindings.Proofs.Layout.ImportPath
import ApiBindings.Proofs.Source.References
import ApiBindings.Proofs.Target.ImportSet
import ApiBindings.Request

/-!
# Imports of a declaration

A declaration imports the types that its model depends on, each from the file it is generated to,
and nothing else.  Left out are the names that the file declares itself.  The imports that every
service starts with come first and are never added to, because they are of packages.
-/

namespace ApiBindings

open Target (Import ImportSet Provides Tidy)

/-- The imports of a declaration. -/
def Target.Declaration.imports : Target.Declaration → List Import
  | .dataClass declaration => declaration.imports
  | .service declaration => declaration.imports
  | .enum _ => []

namespace Binding

open Source (Model TypeReference)

/-- The type parameters of a model. Only a class has one. -/
def typeParameters : Model → List String
  | .ofClass model => model.typeParameter.toList
  | .ofEnum _ => []
  | .ofService _ => []

/-- The names that the file of a model declares. -/
def ownNames (model : Model) : List String :=
  model.name :: typeParameters model

/-- The imports that a model has whatever it depends on. -/
def givenImports : Model → List Import
  | .ofClass _ => []
  | .ofEnum _ => []
  | .ofService _ => transportImports

/-! ## Adding imports -/

theorem importOf_eq_ok {layout : Layout} {consumer : Category} {reference : TypeReference}
    {new : Import} (found : importOf layout consumer reference = .ok new) :
    new.names = [reference.name] ∧
      layout.importPath? consumer reference.name reference.kind.category = some new.path := by
  unfold importOf at found
  split at found
  · cases found
  · split at found
    · rename_i path resolved
      cases found
      exact ⟨rfl, resolved⟩
    · cases found

/-- Imports after those of some references are added, apart from references to own names. -/
structure Adds (layout : Layout) (consumer : Category) (own : List String)
    (references : List TypeReference) (before after : List Import) : Prop where
  tidy : Tidy before → Tidy after
  resolved : ∀ reference ∈ references, reference.name ∉ own →
    ∃ path, layout.importPath? consumer reference.name reference.kind.category = some path
  provides : ∀ path name, Provides after path name ↔ Provides before path name ∨
    ∃ reference ∈ references, reference.name = name ∧ name ∉ own ∧
      layout.importPath? consumer name reference.kind.category = some path
  /-- Imports of packages at the front stay as they are. -/
  front : ∀ given, (∀ entry ∈ given, entry.path.toList.head? ≠ some '.') →
    given <+: before → given <+: after

variable {layout : Layout} {consumer : Category} {own : List String}

theorem Adds.skip {reference : TypeReference} {rest : List TypeReference}
    {before after : List Import} (known : reference.name ∈ own)
    (adds : Adds layout consumer own rest before after) :
    Adds layout consumer own (reference :: rest) before after where
  tidy := adds.tidy
  resolved := by
    intro other member foreign
    rcases List.mem_cons.mp member with rfl | later
    · exact absurd known foreign
    · exact adds.resolved other later foreign
  provides := by
    intro path name
    have skipped : ¬ (reference.name = name ∧ name ∉ own ∧
        layout.importPath? consumer name reference.kind.category = some path) := by
      rintro ⟨rfl, foreign, -⟩
      exact foreign known
    rw [adds.provides path name]
    simp only [List.mem_cons, exists_eq_or_imp, skipped, false_or]
  front := adds.front

theorem Adds.insert {reference : TypeReference} {rest : List TypeReference} {new : Import}
    {before after : List Import} (foreign : reference.name ∉ own)
    (found : importOf layout consumer reference = .ok new)
    (adds : Adds layout consumer own rest (ImportSet.insertInto new before) after) :
    Adds layout consumer own (reference :: rest) before after := by
  obtain ⟨names, resolved⟩ := importOf_eq_ok found
  exact {
    tidy := fun tidy => adds.tidy (ImportSet.tidy_insertInto tidy new)
    resolved := by
      intro other member unknown
      rcases List.mem_cons.mp member with rfl | later
      · exact ⟨new.path, resolved⟩
      · exact adds.resolved other later unknown
    provides := by
      intro path name
      have inserted : new.path = path ∧ name ∈ new.names ↔ reference.name = name ∧ name ∉ own ∧
          layout.importPath? consumer name reference.kind.category = some path := by
        rw [names, List.mem_singleton]
        constructor
        · rintro ⟨rfl, rfl⟩
          exact ⟨rfl, foreign, resolved⟩
        · rintro ⟨rfl, -, same⟩
          exact ⟨Option.some.inj (resolved.symm.trans same), rfl⟩
      rw [adds.provides path name, ImportSet.provides_insertInto, inserted]
      simp only [List.mem_cons, exists_eq_or_imp, or_assoc]
    front := by
      intro given packages front
      refine adds.front given packages (ImportSet.isPrefix_insertInto ?_ front)
      intro member
      obtain ⟨entry, inside, same⟩ := List.mem_map.mp member
      exact packages entry inside (same ▸ Layout.head?_of_importPath? resolved) }

theorem adds_importAll {references : List TypeReference} {before after : ImportSet}
    (imported : importAll layout consumer own references before = .ok after) :
    Adds layout consumer own references before.entries after.entries := by
  induction references generalizing before with
  | nil =>
      cases imported
      exact ⟨id, by simp, by simp, fun _ _ front => front⟩
  | cons reference rest ih =>
      rw [importAll] at imported
      split at imported
      · rename_i known
        rw [List.contains_eq_mem, decide_eq_true_eq] at known
        exact (ih imported).skip known
      · rename_i foreign
        rw [List.contains_eq_mem, decide_eq_true_eq] at foreign
        obtain ⟨new, found, imported⟩ := Except.bind_eq_ok_iff.mp imported
        exact (ih imported).insert foreign found

/-! ## Declarations -/

/-- The imports of a declaration are those its model needs, and no others. -/
structure ImportsExactly (layout : Layout) (model : Model) (declaration : Target.Declaration) :
    Prop where
  /-- There is one entry for each module. -/
  paths : (declaration.imports.map (·.path)).Nodup
  /-- An entry has each of its names once. -/
  names : ∀ entry ∈ declaration.imports, entry.names.Nodup
  /-- What the model depends on can be imported. -/
  resolved : ∀ reference, model.DependsOn reference → reference.name ∉ ownNames model →
    ∃ path, layout.importPath? declaration.category reference.name reference.kind.category =
      some path
  provides : ∀ path name, Provides declaration.imports path name ↔
    Provides (givenImports model) path name ∨
      ∃ reference, model.DependsOn reference ∧ reference.name = name ∧ name ∉ ownNames model ∧
        layout.importPath? declaration.category name reference.kind.category = some path
  /-- The given imports come first and have no other names than their own. -/
  front : givenImports model <+: declaration.imports

theorem tidy_givenImports (model : Model) : Tidy (givenImports model) := by
  cases model with
  | ofClass model => exact ⟨List.nodup_nil, by simp [givenImports]⟩
  | ofEnum model => exact ⟨List.nodup_nil, by simp [givenImports]⟩
  | ofService model => exact ⟨by simp [givenImports, transportImports],
      by simp [givenImports, transportImports]⟩

theorem head?_of_mem_givenImports (model : Model) :
    ∀ entry ∈ givenImports model, entry.path.toList.head? ≠ some '.' := by
  cases model with
  | ofClass model => simp [givenImports]
  | ofEnum model => simp [givenImports]
  | ofService model => simp [givenImports, transportImports]

theorem ImportsExactly.of_adds {model : Model} {declaration : Target.Declaration}
    {references : List TypeReference}
    (adds : Adds layout declaration.category (ownNames model) references (givenImports model)
      declaration.imports)
    (collected : ∀ reference, reference ∈ references ↔ model.DependsOn reference) :
    ImportsExactly layout model declaration := by
  obtain ⟨paths, names⟩ := adds.tidy (tidy_givenImports model)
  exact {
    paths, names
    resolved := fun reference depends =>
      adds.resolved reference ((collected reference).mpr depends)
    provides := by
      intro path name
      simp only [adds.provides path name, collected]
    front := adds.front _ (head?_of_mem_givenImports model) (List.prefix_refl _) }

/-- The imports of a declaration come about by adding those of what its model depends on. -/
theorem adds_of_bind {context : Context} {model : Model} {declaration : Target.Declaration}
    (bound : bind context model = .ok declaration) :
    ∃ references, (∀ reference, reference ∈ references ↔ model.DependsOn reference) ∧
      Adds context.layout declaration.category (ownNames model) references (givenImports model)
        declaration.imports := by
  cases binds_of_bind bound with
  | ofClass own =>
      obtain ⟨-, base, properties, imports, boundBase, boundProperties, imported, rfl⟩ :=
        bindClass_eq_ok own
      refine ⟨_, ?_, adds_importAll imported⟩
      intro reference
      simp only [List.mem_append, mem_references_of_bindBase boundBase,
        mem_references_of_bindProperties boundProperties, Model.DependsOn,
        Model.refersTo_ofClass_iff, Model.listed]
  | @ofEnum model enumeration =>
      have imported : importAll context.layout .enum [model.name] [] {} = .ok {} := rfl
      refine ⟨[], ?_, adds_importAll imported⟩
      intro reference
      simp [Model.DependsOn, Model.not_refersTo_ofEnum, Model.listed]
  | ofService own =>
      obtain ⟨-, methods, imports, boundMethods, imported, rfl⟩ := bindService_eq_ok own
      have started : (ImportSet.extend {} transportImports).entries = transportImports := by decide
      have adds := adds_importAll imported
      rw [started] at adds
      refine ⟨_, ?_, adds⟩
      intro reference
      simp only [List.mem_append, mem_references_of_bindMethods boundMethods, Model.DependsOn,
        Model.refersTo_ofService_iff, Model.listed]

/-- The import list of every declaration is exact. -/
theorem bind_importsExactly {context : Context} {model : Model} {declaration : Target.Declaration}
    (bound : bind context model = .ok declaration) :
    ImportsExactly context.layout model declaration := by
  obtain ⟨references, collected, adds⟩ := adds_of_bind bound
  exact .of_adds adds collected

theorem bind_importsExactly_service :
    let context : Context := { layout := { root := ⟨"out"⟩ } }
    let model : Model := .ofService {
      name := "UserService"
      route := "/users"
      methods := [{
        name := "Find"
        verb := .get
        returnType := .collection (.reference "User" .model [])
        parameters := [⟨"Role", .nullable (.reference "Role" .enum [])⟩] }] }
    ∃ declaration, bind context model = .ok declaration ∧
      ImportsExactly context.layout model declaration ∧
      declaration.imports = transportImports ++
        [⟨["User"], "../models/user.model"⟩, ⟨["Role"], "../enums/role.enum"⟩] := by
  intro context model
  have evaluated : (bind context model).map Target.Declaration.imports = .ok (transportImports ++
      [⟨["User"], "../models/user.model"⟩, ⟨["Role"], "../enums/role.enum"⟩]) := by
    decide +kernel
  obtain ⟨declaration, bound, imports⟩ := Except.map_eq_ok_iff.mp evaluated
  exact ⟨declaration, bound, bind_importsExactly bound, imports⟩

end Binding

end ApiBindings
