import ApiBindings.Proofs.Binding.Imports

/-!
# Names in a generated file

A type that a declaration refers to is known in its file by its bare name.  The name means the type
if it is bound once, by the import of that type or, in a class that refers to itself, by the class.
When it does is decided by the model alone: nothing else in it may go by the same name.
-/

namespace ApiBindings

open Target (Import Provides Tidy)

/-- The type parameters of a declaration. -/
def Target.Declaration.typeParameters : Target.Declaration → List String
  | .dataClass declaration => declaration.typeParameters
  | .service _ => []
  | .enum _ => []

namespace Binding

open Source (Model TypeReference)

/-- What binds a name in a generated file. -/
inductive Binder where
  | declared
  | typeParameter
  | imported (path : String)
  deriving Repr, DecidableEq

/-- The modules that a name is imported from, each as often as its entries have the name. -/
def importersOf (name : String) (entries : List Import) : List String :=
  entries.flatMap fun entry => List.replicate (entry.names.count name) entry.path

/-- Everything that binds a name in the file of a declaration. -/
def bindersOf (declaration : Target.Declaration) (name : String) : List Binder :=
  List.replicate ([declaration.name].count name) .declared ++
    List.replicate (declaration.typeParameters.count name) .typeParameter ++
    (importersOf name declaration.imports).map .imported

/-- The name of a reference is bound once, by the import of the type or by the class itself. -/
def BoundOnce (layout : Layout) (model : Model) (declaration : Target.Declaration)
    (reference : TypeReference) : Prop :=
  (∃ path, layout.importPath? declaration.category reference.name reference.kind.category =
      some path ∧ bindersOf declaration reference.name = [.imported path]) ∨
    (ModelId.ofModel model = ⟨reference.name, .model⟩ ∧ reference.kind = .model ∧
      bindersOf declaration reference.name = [.declared])

/-- Nothing else in a model goes by the name of a reference. -/
structure Unambiguous (model : Model) (reference : TypeReference) : Prop where
  parameter : reference.name ∉ typeParameters model
  given : ∀ entry ∈ givenImports model, reference.name ∉ entry.names
  /-- The name of the model itself means a class, which a service is not. -/
  own : reference.name = model.name →
    (ModelId.ofModel model).category = .model ∧ reference.kind = .model
  alike : reference.name ≠ model.name → ∀ other, model.DependsOn other →
    other.name = reference.name → other.kind = reference.kind

/-! ## Importers -/

theorem mem_importersOf {name path : String} {entries : List Import} :
    path ∈ importersOf name entries ↔ Provides entries path name := by
  simp only [importersOf, Provides, List.mem_flatMap, List.mem_replicate, ne_eq,
    List.count_eq_zero, not_not]
  constructor
  · rintro ⟨entry, member, listed, rfl⟩
    exact ⟨entry, member, rfl, listed⟩
  · rintro ⟨entry, member, rfl, listed⟩
    exact ⟨entry, member, listed, rfl⟩

/-- A tidy list imports a name from a module once at most. -/
theorem nodup_importersOf (name : String) {entries : List Import} (tidy : Tidy entries) :
    (importersOf name entries).Nodup := by
  induction entries with
  | nil => exact List.nodup_nil
  | cons entry rest ih =>
      obtain ⟨paths, names⟩ := tidy
      rw [List.map_cons, List.nodup_cons] at paths
      rw [List.forall_mem_cons] at names
      have once : (List.replicate (entry.names.count name) entry.path).Nodup :=
        List.nodup_replicate.mpr (List.nodup_iff_count_le_one.mp names.1 name)
      rw [importersOf, List.flatMap_cons, List.nodup_append]
      refine ⟨once, ih ⟨paths.2, names.2⟩, ?_⟩
      intro path here other later same
      obtain ⟨owner, member, rfl, -⟩ := mem_importersOf.mp later
      rw [(List.mem_replicate.mp here).2] at same
      exact paths.1 (List.mem_map.mpr ⟨owner, member, same.symm⟩)

theorem importersOf_eq_singleton_iff {name path : String} {entries : List Import}
    (tidy : Tidy entries) :
    importersOf name entries = [path] ↔ ∀ other, Provides entries other name ↔ other = path := by
  constructor
  · intro single other
    rw [← mem_importersOf, single, List.mem_singleton]
  · intro only
    rw [← List.perm_singleton]
    apply (List.perm_ext_iff_of_nodup (nodup_importersOf name tidy) (List.nodup_singleton path)).mpr
    intro other
    rw [mem_importersOf, only, List.mem_singleton]

theorem importersOf_eq_nil_iff {name : String} {entries : List Import} :
    importersOf name entries = [] ↔ ∀ path, ¬ Provides entries path name := by
  simp only [List.eq_nil_iff_forall_not_mem, mem_importersOf]

/-! ## Binders -/

theorem bindersOf_eq_imported_iff {declaration : Target.Declaration} {name path : String} :
    bindersOf declaration name = [.imported path] ↔ name ≠ declaration.name ∧
      name ∉ declaration.typeParameters ∧ importersOf name declaration.imports = [path] := by
  by_cases own : name = declaration.name
  · simp [bindersOf, own]
  · have declared : [declaration.name].count name = 0 := by simp [Ne.symm own]
    cases parameters : declaration.typeParameters.count name with
    | zero =>
        have absent := List.count_eq_zero.mp parameters
        simp [bindersOf, declared, parameters, own, absent, List.map_eq_cons_iff]
    | succ count =>
        have present : name ∈ declaration.typeParameters :=
          List.count_pos_iff.mp (by rw [parameters]; exact Nat.succ_pos count)
        simp [bindersOf, declared, parameters, present, List.replicate_succ]

theorem bindersOf_eq_declared_iff {declaration : Target.Declaration} {name : String} :
    bindersOf declaration name = [.declared] ↔ name = declaration.name ∧
      name ∉ declaration.typeParameters ∧ importersOf name declaration.imports = [] := by
  by_cases own : name = declaration.name
  · simp [bindersOf, own, List.count_eq_zero]
  · have declared : [declaration.name].count name = 0 := by simp [Ne.symm own]
    cases parameters : declaration.typeParameters.count name with
    | zero => simp [bindersOf, declared, parameters, own, List.map_eq_cons_iff]
    | succ count => simp [bindersOf, declared, parameters, own, List.replicate_succ]

/-! ## References -/

theorem kind_of_category {kind other : Source.DependencyKind}
    (same : kind.category = other.category) : kind = other := by
  cases kind <;> cases other <;> first | rfl | cases same

/-- No given import has a name that is imported for a reference. -/
theorem not_mem_givenImports {layout : Layout} {consumer dependency : Category} {model : Model}
    {name typeName path : String} (given : Provides (givenImports model) path name)
    (resolved : layout.importPath? consumer typeName dependency = some path) : False := by
  obtain ⟨entry, member, rfl, -⟩ := given
  exact head?_of_mem_givenImports model entry member (Layout.head?_of_importPath? resolved)

theorem typeParameters_of_bind {context : Context} {model : Model}
    {declaration : Target.Declaration} (bound : bind context model = .ok declaration) :
    declaration.typeParameters = typeParameters model := by
  cases binds_of_bind bound with
  | ofClass own =>
      obtain ⟨-, -, -, -, -, -, -, rfl⟩ := bindClass_eq_ok own
      rfl
  | ofEnum => rfl
  | ofService => rfl

section

variable {context : Context} {model : Model} {declaration : Target.Declaration}
  {reference : TypeReference}

theorem unambiguous_of_boundOnce (bound : bind context model = .ok declaration)
    (once : BoundOnce context.layout model declaration reference) :
    Unambiguous model reference := by
  obtain ⟨name, -, -⟩ := declared_of_bind bound
  obtain ⟨references, collected, adds⟩ := adds_of_bind bound
  have exact := ImportsExactly.of_adds adds collected
  rcases once with ⟨path, resolved, binders⟩ | ⟨itself, kind, binders⟩
  · obtain ⟨foreign, parameter, importers⟩ := bindersOf_eq_imported_iff.mp binders
    rw [name] at foreign
    rw [typeParameters_of_bind bound] at parameter
    have only := (importersOf_eq_singleton_iff ⟨exact.paths, exact.names⟩).mp importers
    exact {
      parameter
      given := by
        intro entry member listed
        have given : Provides (givenImports model) entry.path reference.name :=
          ⟨entry, member, rfl, listed⟩
        have provided := (exact.provides entry.path reference.name).mpr (.inl given)
        exact not_mem_givenImports given ((only entry.path).mp provided ▸ resolved)
      own := fun own => absurd own foreign
      alike := by
        intro _ other depends same
        have unknown : other.name ∉ ownNames model := by
          rw [same, ownNames, List.mem_cons, not_or]
          exact ⟨foreign, parameter⟩
        obtain ⟨otherPath, found⟩ := exact.resolved other depends unknown
        rw [same] at unknown found
        have provided := (exact.provides otherPath reference.name).mpr
          (.inr ⟨other, depends, same, unknown, found⟩)
        rw [(only otherPath).mp provided] at found
        exact kind_of_category (Layout.category_of_importPath? found resolved) }
  · obtain ⟨own, parameter, importers⟩ := bindersOf_eq_declared_iff.mp binders
    rw [name] at own
    rw [typeParameters_of_bind bound] at parameter
    exact {
      parameter
      given := by
        intro entry member listed
        apply importersOf_eq_nil_iff.mp importers entry.path
        exact (exact.provides entry.path reference.name).mpr (.inl ⟨entry, member, rfl, listed⟩)
      own := fun _ => ⟨by rw [itself], kind⟩
      alike := fun foreign => absurd own foreign }

theorem boundOnce_of_unambiguous (bound : bind context model = .ok declaration)
    (refers : model.RefersTo reference) (unambiguous : Unambiguous model reference) :
    BoundOnce context.layout model declaration reference := by
  obtain ⟨name, -, -⟩ := declared_of_bind bound
  obtain ⟨references, collected, adds⟩ := adds_of_bind bound
  have exact := ImportsExactly.of_adds adds collected
  have parameter : reference.name ∉ declaration.typeParameters := by
    rw [typeParameters_of_bind bound]
    exact unambiguous.parameter
  have ungiven : ∀ path, ¬ Provides (givenImports model) path reference.name := by
    rintro path ⟨entry, member, -, listed⟩
    exact unambiguous.given entry member listed
  by_cases own : reference.name = model.name
  · obtain ⟨category, kind⟩ := unambiguous.own own
    refine .inr ⟨?_, kind, bindersOf_eq_declared_iff.mpr ⟨own.trans name.symm, parameter, ?_⟩⟩
    · cases model with
      | ofClass model => rw [own]; rfl
      | ofEnum model => cases category
      | ofService model => cases category
    · rw [importersOf_eq_nil_iff]
      intro path provided
      rcases (exact.provides path reference.name).mp provided with given | ⟨_, _, _, foreign, _⟩
      · exact ungiven path given
      · exact foreign (by rw [own]; exact List.mem_cons_self)
  · have unknown : reference.name ∉ ownNames model := by
      rw [ownNames, List.mem_cons, not_or]
      exact ⟨own, unambiguous.parameter⟩
    obtain ⟨path, resolved⟩ := exact.resolved reference (.inl refers) unknown
    refine .inl ⟨path, resolved, bindersOf_eq_imported_iff.mpr
      ⟨fun same => own (same.trans name), parameter, ?_⟩⟩
    rw [importersOf_eq_singleton_iff ⟨exact.paths, exact.names⟩]
    intro other
    rw [exact.provides other reference.name]
    constructor
    · rintro (given | ⟨clash, depends, same, -, found⟩)
      · exact absurd given (ungiven other)
      · rw [unambiguous.alike own clash depends same, resolved] at found
        exact (Option.some.inj found).symm
    · rintro rfl
      exact .inr ⟨reference, .inl refers, rfl, unknown, resolved⟩

/-- A reference is bound once in its file exactly if nothing else in its model goes by its name. -/
theorem boundOnce_iff_unambiguous (bound : bind context model = .ok declaration)
    (refers : model.RefersTo reference) :
    BoundOnce context.layout model declaration reference ↔ Unambiguous model reference :=
  ⟨unambiguous_of_boundOnce bound, boundOnce_of_unambiguous bound refers⟩

end

theorem boundOnce_order_status :
    let context : Context := { layout := { root := ⟨"out"⟩ } }
    let model : Model := .ofClass {
      name := "Order"
      properties := [⟨"Status", .reference "Status" .enum []⟩] }
    ∃ declaration, bind context model = .ok declaration ∧
      BoundOnce context.layout model declaration ⟨"Status", .enum⟩ := by
  intro context model
  have refers : model.RefersTo ⟨"Status", .enum⟩ :=
    .property List.mem_cons_self (.here [])
  have unambiguous : Unambiguous model ⟨"Status", .enum⟩ := {
    parameter := by decide
    given := by decide
    own := by decide
    alike := by
      rintro - other (inside | listed) -
      · have same : other = ⟨"Status", .enum⟩ := by
          simpa [model, Model.refersTo_ofClass_iff] using inside
        rw [same]
      · simp [model, Model.listed] at listed }
  have evaluated : (bind context model).map Target.Declaration.name = .ok "Order" := by
    decide +kernel
  obtain ⟨declaration, bound, -⟩ := Except.map_eq_ok_iff.mp evaluated
  exact ⟨declaration, bound, (boundOnce_iff_unambiguous bound refers).mpr unambiguous⟩

/-- A class takes a reference to an enumeration of its own name for one to itself. -/
theorem not_boundOnce_namesake :
    let context : Context := { layout := { root := ⟨"out"⟩ } }
    let model : Model := .ofClass {
      name := "Status"
      properties := [⟨"Status", .reference "Status" .enum []⟩] }
    ∃ declaration, bind context model = .ok declaration ∧
      model.RefersTo ⟨"Status", .enum⟩ ∧ bindersOf declaration "Status" = [.declared] ∧
      ¬ BoundOnce context.layout model declaration ⟨"Status", .enum⟩ := by
  intro context model
  have evaluated : (bind context model).map (bindersOf · "Status") = .ok [.declared] := by
    decide +kernel
  obtain ⟨declaration, bound, binders⟩ := Except.map_eq_ok_iff.mp evaluated
  refine ⟨declaration, bound, .property List.mem_cons_self (.here []), binders, ?_⟩
  rintro (⟨path, -, imported⟩ | ⟨-, kind, -⟩)
  · rw [binders] at imported
    cases imported
  · cases kind

end Binding

end ApiBindings
