import ApiBindings.Proofs.Binding.Binders
import ApiBindings.Proofs.Binding.NormalTypes
import ApiBindings.Proofs.Binding.WellFormedServices
import ApiBindings.Proofs.Identifier.MemberCase

/-!
# Legal names in declarations

The names that stand in a declaration, and which of them need not be legal.  A declared name has
been checked and the name of a member has been converted.  What is left are names that are copied
from the model: a type parameter, which nothing checks, and a type that is referred to, which has to
be an identifier if it is imported but may be a reserved word.
-/

namespace ApiBindings

open Identifier (IsLegal isReserved isValid toMemberCase)

namespace Target

namespace TypeExpr

mutual

/-- The names in a type: of types that are known by name, with arguments or without. -/
def names : TypeExpr → List String
  | .primitive _ => []
  | .array element => element.names
  | .union members => namesOfAll members
  | .record key value => key.names ++ value.names
  | .reference name => [name]
  | .generic name arguments => name :: namesOfAll arguments

/-- The names in several types. -/
def namesOfAll : List TypeExpr → List String
  | [] => []
  | type :: rest => type.names ++ namesOfAll rest

end

theorem namesOfAll_eq_flatMap (types : List TypeExpr) : namesOfAll types = types.flatMap names := by
  induction types with
  | nil => rfl
  | cons type rest ih => rw [namesOfAll, ih, List.flatMap_cons]

end TypeExpr

/-- The types in the signature of a method. -/
def Method.types (method : Method) : List TypeExpr :=
  method.returnType :: method.parameters.map (·.type)

/-- The names of a method and of its parameters. -/
def Method.ownNames (method : Method) : List String :=
  method.name :: method.parameters.map (·.name)

namespace Declaration

/-- The types that a class is declared with. -/
def types : Declaration → List TypeExpr
  | .dataClass declaration =>
      declaration.baseClass.toList ++ declaration.properties.filterMap (·.type)
  | .service declaration =>
      declaration.properties.filterMap (·.type) ++
        declaration.constructorParameters.map (·.type) ++
        declaration.methods.flatMap Method.types
  | .enum _ => []

/-- The names of the properties, methods and parameters of a class. An enumeration has none of them:
what it lists may go by any name. -/
def memberNames : Declaration → List String
  | .dataClass declaration => declaration.properties.map (·.name)
  | .service declaration =>
      declaration.properties.map (·.name) ++ declaration.constructorParameters.map (·.name) ++
        declaration.methods.flatMap Method.ownNames
  | .enum _ => []

/-- Every name in a declaration: declared, of a member, in a type, or imported. -/
def identifiers (declaration : Declaration) : List String :=
  declaration.name :: declaration.typeParameters ++ declaration.memberNames ++
    declaration.types.flatMap TypeExpr.names ++ declaration.imports.flatMap (·.names)

end Declaration

end Target

namespace Source

/-- A type parameter that a model declares or that one of its types is made of. -/
def Model.HasTypeParameter (model : Model) (name : String) : Prop :=
  name ∈ Binding.typeParameters model ∨ ∃ type ∈ model.types, .typeParameter name ∈ type.preorder

theorem Model.refersTo_iff {model : Model} {reference : TypeReference} :
    model.RefersTo reference ↔ ∃ type ∈ model.types, type.RefersTo reference := by
  cases model with
  | ofClass model =>
      simp [refersTo_ofClass_iff, types, or_and_right, exists_or]
  | ofEnum model => simp [not_refersTo_ofEnum, types]
  | ofService model =>
      simp only [refersTo_ofService_iff, types, List.mem_flatMap, List.mem_cons,
        List.mem_map]
      constructor
      · rintro ⟨method, member, inside | ⟨parameter, own, inside⟩⟩
        · exact ⟨method.returnType, ⟨method, member, .inl rfl⟩, inside⟩
        · exact ⟨parameter.type, ⟨method, member, .inr ⟨parameter, own, rfl⟩⟩, inside⟩
      · rintro ⟨type, ⟨method, member, rfl | ⟨parameter, own, rfl⟩⟩, inside⟩
        · exact ⟨method, member, .inl inside⟩
        · exact ⟨method, member, .inr ⟨parameter, own, inside⟩⟩

namespace TypeExpr

/-- The name that a type itself has, its arguments aside. -/
def name? : TypeExpr → Option String
  | .reference name _ _ => some name
  | .typeParameter name => some name
  | _ => none

mutual

theorem names_eq_filterMap : (type : TypeExpr) → type.names = type.preorder.filterMap name? := by
  intro type
  cases type with
  | primitive name => rfl
  | nullable inner => exact names_eq_filterMap inner
  | collection element => exact names_eq_filterMap element
  | dictionary key value =>
      rw [names, preorder, List.filterMap_cons_none rfl, List.filterMap_append,
        names_eq_filterMap key, names_eq_filterMap value]
  | reference name kind arguments =>
      rw [names, namesOfAll_eq_filterMap arguments]
      rfl
  | typeParameter name => rfl
  | unknown => rfl

theorem namesOfAll_eq_filterMap : (types : List TypeExpr) →
    namesOfAll types = (preorderOfAll types).filterMap name? := by
  intro types
  cases types with
  | nil => rfl
  | cons type rest =>
      rw [namesOfAll, preorderOfAll, List.filterMap_append, names_eq_filterMap type,
        namesOfAll_eq_filterMap rest]

end

theorem name?_eq_some_iff {part : TypeExpr} {name : String} : part.name? = some name ↔
    part = .typeParameter name ∨ ∃ kind, part.reference? = some ⟨name, kind⟩ := by
  cases part <;> simp [name?, reference?, eq_comm]

/-- The names in a type are those of its type parameters and of what it refers to. -/
theorem mem_names_iff {type : TypeExpr} {name : String} : name ∈ type.names ↔
    .typeParameter name ∈ type.preorder ∨ ∃ kind, type.RefersTo ⟨name, kind⟩ := by
  simp only [names_eq_filterMap, ← mem_preorder_iff, List.mem_filterMap, name?_eq_some_iff]
  constructor
  · rintro ⟨part, member, rfl | ⟨kind, refers⟩⟩
    · exact .inl member
    · exact .inr ⟨kind, part, member, refers⟩
  · rintro (member | ⟨kind, part, member, refers⟩)
    · exact ⟨_, member, .inl rfl⟩
    · exact ⟨part, member, .inr ⟨kind, refers⟩⟩

end TypeExpr

theorem Model.mem_names_iff {model : Model} {name : String} :
    name ∈ model.types.flatMap TypeExpr.names ↔
      (∃ type ∈ model.types, .typeParameter name ∈ type.preorder) ∨
        ∃ kind, model.RefersTo ⟨name, kind⟩ := by
  simp only [List.mem_flatMap, TypeExpr.mem_names_iff, Model.refersTo_iff]
  constructor
  · rintro ⟨type, member, parameter | ⟨kind, refers⟩⟩
    · exact .inl ⟨type, member, parameter⟩
    · exact .inr ⟨kind, type, member, refers⟩
  · rintro (⟨type, member, parameter⟩ | ⟨kind, type, member, refers⟩)
    · exact ⟨type, member, .inl parameter⟩
    · exact ⟨type, member, .inr ⟨kind, refers⟩⟩

end Source

namespace Binding

open Source (Model)

variable {dates : DateMapping}

/-! ## Names in mapped types -/

theorem mem_flatMap_names_iff {sources : List Source.TypeExpr} {types : List Target.TypeExpr}
    {name : String}
    (alike : List.Forall₂ (fun source type => name ∈ type.names ↔ name ∈ source.names) sources
      types) :
    name ∈ types.flatMap Target.TypeExpr.names ↔ name ∈ sources.flatMap Source.TypeExpr.names := by
  induction alike with
  | nil => simp
  | cons same _ ih =>
      rw [List.flatMap_cons, List.flatMap_cons, List.mem_append, List.mem_append, same, ih]

/-- A mapped type has the names of its source, and `Date` where that has a date. -/
theorem Maps.mem_names_iff {source : Source.TypeExpr} {type : Target.TypeExpr} {name : String}
    (maps : Maps dates source type) (other : name ≠ "Date") :
    name ∈ type.names ↔ name ∈ source.names := by
  induction maps with
  | primitive known =>
      rcases target_of_primitive? known with ⟨builtIn, -, same⟩ | same
      · rw [same]
        simp [Target.TypeExpr.names, Source.TypeExpr.names]
      · rw [same]
        simp [Target.TypeExpr.names, Source.TypeExpr.names, other]
  | nullable _ _ ih =>
      simpa [Target.TypeExpr.names, Target.TypeExpr.namesOfAll, Target.TypeExpr.null,
        Source.TypeExpr.names] using ih
  | again _ ih => exact ih
  | collection _ ih => exact ih
  | dictionary _ _ ih ihToo =>
      simp only [Target.TypeExpr.names, Source.TypeExpr.names, List.mem_append, ih, ihToo]
  | reference own kind =>
      simp [Target.TypeExpr.names, Source.TypeExpr.names, Source.TypeExpr.namesOfAll]
  | @generic own kind arguments types nonempty length maps ih =>
      have alike : List.Forall₂ (fun source type => name ∈ type.names ↔ name ∈ source.names)
          arguments types := by
        rw [List.forall₂_iff_get]
        refine ⟨length, fun index inside insideToo => ?_⟩
        exact ih index _ _ (List.getElem?_eq_getElem inside) (List.getElem?_eq_getElem insideToo)
      have inside := mem_flatMap_names_iff alike
      rw [List.mem_flatMap (l := arguments), ← Source.TypeExpr.mem_namesOfAll] at inside
      rw [Target.TypeExpr.names, Source.TypeExpr.names, List.mem_cons, List.mem_cons,
        Target.TypeExpr.namesOfAll_eq_flatMap, inside]
  | typeParameter own => simp [Target.TypeExpr.names, Source.TypeExpr.names]

/-! ## Types of a declaration -/

theorem maps_of_base {source : Option Source.TypeExpr} {type : Option Target.TypeExpr}
    (base : Option.Rel (fun source type => ∃ mapped, mapType dates source = .ok mapped ∧
      mapped.type = type) source type) :
    List.Forall₂ (Maps dates) source.toList type.toList := by
  cases base with
  | none => exact .nil
  | some own =>
      obtain ⟨mapped, found, rfl⟩ := own
      exact .cons (maps_of_mapType _ found) .nil

theorem maps_of_declares {sources : List Source.Property} {properties : List Target.Property}
    (declared : List.Forall₂ (Declares dates) sources properties) :
    List.Forall₂ (Maps dates) (sources.map (·.type)) (properties.filterMap (·.type)) := by
  induction declared with
  | nil => exact .nil
  | cons own _ ih =>
      obtain ⟨mapped, found, type⟩ := own.type
      rw [List.map_cons, List.filterMap_cons_some type]
      exact .cons (maps_of_mapType _ found) ih

theorem maps_of_declaresMethod {source : Source.Method} {method : Target.Method}
    (declared : DeclaresMethod dates source method) :
    List.Forall₂ (Maps dates) (source.returnType :: source.parameters.map (·.type))
      method.types := by
  obtain ⟨result, found, type⟩ := declared.result
  refine .cons (type ▸ maps_of_mapType _ found) ?_
  rw [List.forall₂_map_left_iff, List.forall₂_map_right_iff]
  refine declared.parameters.imp fun source parameter own => ?_
  obtain ⟨mapped, mappedType, same⟩ := own.type
  exact same ▸ maps_of_mapType _ mappedType

/-- The type of the client is all that a service is declared with on its own account. -/
theorem exists_types_of_bind {context : Context} {model : Model}
    {declaration : Target.Declaration} (bound : bind context model = .ok declaration) :
    ∃ given types, declaration.types = given ++ types ∧
      (∀ type ∈ given, type = .reference transportType) ∧
      List.Forall₂ (Maps context.dates) model.types types := by
  cases binds_of_bind bound with
  | ofClass own =>
      have declared := declaresClass_of_bindClass own
      refine ⟨[], _, rfl, by simp, ?_⟩
      exact List.rel_append (maps_of_base declared.base) (maps_of_declares declared.properties)
  | ofEnum => exact ⟨[], [], rfl, by simp, .nil⟩
  | @ofService model service own =>
      have declared := declaresService_of_bindService own
      refine ⟨[.reference transportType], service.methods.flatMap Target.Method.types, ?_, by simp,
        ?_⟩
      · rw [Target.Declaration.types, declared.properties, declared.constructorParameters]
        rfl
      · exact List.rel_flatMap declared.methods fun _ _ => maps_of_declaresMethod

/-! ## Legal and other names -/

/-- A name that is copied from a model without a check that it is legal. -/
inductive IsUnchecked (model : Model) (name : String) : Prop where
  | parameter (own : model.HasTypeParameter name) (illegal : ¬ IsLegal name)
  /-- What is referred to has to be an identifier, as a reserved word is. -/
  | reserved {kind : Source.DependencyKind} (depends : model.DependsOn ⟨name, kind⟩)
      (reserved : isReserved name = true)

section

variable {context : Context} {model : Model} {declaration : Target.Declaration}

theorem isLegal_name_of_bind (bound : bind context model = .ok declaration) :
    IsLegal declaration.name := by
  have legal {name : String} (declared : Identifier.checkDeclared name = .ok ()) :
      IsLegal name := by
    obtain ⟨valid, unreserved⟩ := Identifier.checkDeclared_eq_ok_iff.mp declared
    exact ⟨valid, unreserved⟩
  cases binds_of_bind bound with
  | ofClass own =>
      obtain ⟨declared, -, -, -, -, -, -, rfl⟩ := bindClass_eq_ok own
      exact legal declared
  | ofEnum own =>
      obtain ⟨declared, name⟩ := bindEnum_eq_ok own
      rw [Target.Declaration.name, name]
      exact legal declared
  | ofService own =>
      obtain ⟨declared, -, -, -, -, rfl⟩ := bindService_eq_ok own
      exact legal declared

theorem isLegal_of_mem_ownNames {source : Source.Method} {method : Target.Method}
    (declared : DeclaresMethod dates source method) :
    ∀ name ∈ method.ownNames, IsLegal name := by
  refine List.forall_mem_cons.mpr ⟨Identifier.isLegal_of_toMemberCase declared.name, ?_⟩
  rw [List.forall_mem_map]
  exact forall_mem_of_forall₂ (fun _ _ own => Identifier.isLegal_of_toMemberCase own.name)
    declared.parameters

/-- The names of members are converted, or are the two that every service has. -/
theorem isLegal_of_mem_memberNames (bound : bind context model = .ok declaration) :
    ∀ name ∈ declaration.memberNames, IsLegal name := by
  cases binds_of_bind bound with
  | ofClass own =>
      rw [Target.Declaration.memberNames, List.forall_mem_map]
      exact forall_mem_of_forall₂ (fun _ _ own => Identifier.isLegal_of_toMemberCase own.name)
        (declaresClass_of_bindClass own).properties
  | ofEnum => simp [Target.Declaration.memberNames]
  | @ofService model service own =>
      have declared := declaresService_of_bindService own
      have given : IsLegal routeProperty ∧ IsLegal transportProperty := by decide
      have methods : ∀ method ∈ service.methods, ∀ name ∈ method.ownNames, IsLegal name :=
        forall_mem_of_forall₂ (fun _ _ own => isLegal_of_mem_ownNames own) declared.methods
      rw [Target.Declaration.memberNames, declared.properties, declared.constructorParameters]
      simp only [List.map_cons, List.map_nil, List.cons_append, List.nil_append,
        List.forall_mem_cons, List.mem_flatMap]
      refine ⟨given.1, given.2, ?_⟩
      rintro name ⟨method, member, inside⟩
      exact methods method member name inside

/-- What a bound model depends on and does not declare itself can be imported. -/
theorem isImportable_of_bind (bound : bind context model = .ok declaration)
    {reference : Source.TypeReference} (depends : model.DependsOn reference)
    (foreign : reference.name ∉ ownNames model) : IsImportable reference := by
  cases binds_of_bind bound with
  | ofClass own => exact (bindClass_ok_iff.mp ⟨_, own⟩).importable reference depends foreign
  | ofEnum => simp [Model.DependsOn, Model.not_refersTo_ofEnum, Model.listed] at depends
  | ofService own =>
      refine (bindService_ok_iff.mp ⟨_, own⟩).importable reference depends ?_
      exact fun same => foreign (same ▸ List.mem_cons_self)

theorem mem_flatMap_names_iff_provides {entries : List Target.Import} {name : String} :
    name ∈ entries.flatMap (·.names) ↔ ∃ path, Target.Provides entries path name := by
  simp [Target.Provides]

/-- Names that a file imports are given, or are those of types that its model depends on. -/
theorem mem_imports_iff (bound : bind context model = .ok declaration) {name : String} :
    name ∈ declaration.imports.flatMap (·.names) ↔
      name ∈ (givenImports model).flatMap (·.names) ∨
        ∃ kind, model.DependsOn ⟨name, kind⟩ ∧ name ∉ ownNames model := by
  have exactly := bind_importsExactly bound
  simp only [mem_flatMap_names_iff_provides, exactly.provides, exists_or]
  refine or_congr_right ⟨?_, ?_⟩
  · rintro ⟨path, reference, depends, rfl, foreign, -⟩
    exact ⟨reference.kind, depends, foreign⟩
  · rintro ⟨kind, depends, foreign⟩
    obtain ⟨path, resolved⟩ := exactly.resolved _ depends foreign
    exact ⟨path, ⟨name, kind⟩, depends, rfl, foreign, resolved⟩

theorem isLegal_of_mem_givenImports :
    ∀ name ∈ (givenImports model).flatMap (·.names), IsLegal name := by
  cases model with
  | ofClass model => simp [givenImports]
  | ofEnum model => simp [givenImports]
  | ofService model =>
      have given : ∀ name ∈ transportImports.flatMap (·.names), IsLegal name := by decide
      exact given

/-! ## The names that need not be legal -/

/-- The name of the model itself is legal, and other names have to be identifiers. -/
theorem isUnchecked_of_dependsOn (bound : bind context model = .ok declaration) {name : String}
    {kind : Source.DependencyKind} (depends : model.DependsOn ⟨name, kind⟩)
    (illegal : ¬ IsLegal name) : IsUnchecked model name := by
  by_cases own : name ∈ ownNames model
  · rcases List.mem_cons.mp own with rfl | parameter
    · have legal := isLegal_name_of_bind bound
      rw [(declared_of_bind bound).1] at legal
      exact absurd legal illegal
    · exact .parameter (.inl parameter) illegal
  · have valid := (isImportable_of_bind bound depends own).valid
    refine .reserved depends ?_
    cases reserved : isReserved name with
    | true => rfl
    | false => exact absurd ⟨valid, reserved⟩ illegal

theorem isUnchecked_of_mem_types (bound : bind context model = .ok declaration) {name : String}
    (member : name ∈ declaration.types.flatMap Target.TypeExpr.names)
    (illegal : ¬ IsLegal name) : IsUnchecked model name := by
  have builtIn : IsLegal "Date" ∧ IsLegal transportType := by decide
  obtain ⟨given, types, split, transport, maps⟩ := exists_types_of_bind bound
  rw [split, List.flatMap_append, List.mem_append] at member
  rcases member with member | member
  · obtain ⟨type, listed, inside⟩ := List.mem_flatMap.mp member
    rw [transport type listed, Target.TypeExpr.names, List.mem_singleton] at inside
    exact absurd (inside ▸ builtIn.2) illegal
  · have other : name ≠ "Date" := fun same => illegal (same ▸ builtIn.1)
    have alike := maps.imp fun _ _ own => own.mem_names_iff other
    rw [mem_flatMap_names_iff alike, Model.mem_names_iff] at member
    rcases member with parameter | ⟨kind, refers⟩
    · exact .parameter (.inr parameter) illegal
    · exact isUnchecked_of_dependsOn bound (.inl refers) illegal

theorem isUnchecked_of_mem_identifiers (bound : bind context model = .ok declaration)
    {name : String} (member : name ∈ declaration.identifiers) (illegal : ¬ IsLegal name) :
    IsUnchecked model name := by
  simp only [Target.Declaration.identifiers, List.cons_append, List.mem_cons, List.mem_append,
    typeParameters_of_bind bound, mem_imports_iff bound] at member
  rcases member with rfl | ((parameter | own) | used) | given | ⟨kind, depends, -⟩
  · exact absurd (isLegal_name_of_bind bound) illegal
  · exact .parameter (.inl parameter) illegal
  · exact absurd (isLegal_of_mem_memberNames bound name own) illegal
  · exact isUnchecked_of_mem_types bound used illegal
  · exact absurd (isLegal_of_mem_givenImports name given) illegal
  · exact isUnchecked_of_dependsOn bound depends illegal

/-- Mapping a type keeps its names, whether they are legal or not. -/
theorem mem_types_of_mem_names (bound : bind context model = .ok declaration) {name : String}
    (other : name ≠ "Date") (member : name ∈ model.types.flatMap Source.TypeExpr.names) :
    name ∈ declaration.types.flatMap Target.TypeExpr.names := by
  obtain ⟨given, types, split, -, maps⟩ := exists_types_of_bind bound
  have alike := maps.imp fun _ _ own => own.mem_names_iff other
  rw [split, List.flatMap_append, List.mem_append]
  exact .inr ((mem_flatMap_names_iff alike).mpr member)

theorem IsUnchecked.not_isLegal {name : String} (unchecked : IsUnchecked model name) :
    ¬ IsLegal name := by
  cases unchecked with
  | parameter own illegal => exact illegal
  | reserved depends reserved =>
      intro legal
      exact Bool.false_ne_true (legal.unreserved.symm.trans reserved)

theorem IsUnchecked.mem_identifiers {name : String} (unchecked : IsUnchecked model name)
    (bound : bind context model = .ok declaration) : name ∈ declaration.identifiers := by
  have other : name ≠ "Date" := by
    rintro rfl
    exact unchecked.not_isLegal (by decide)
  simp only [Target.Declaration.identifiers, List.cons_append, List.mem_cons, List.mem_append,
    typeParameters_of_bind bound, mem_imports_iff bound]
  cases unchecked with
  | parameter own illegal =>
      rcases own with parameter | inside
      · exact .inr (.inl (.inl (.inl parameter)))
      · exact .inr (.inl (.inr
          (mem_types_of_mem_names bound other (Model.mem_names_iff.mpr (.inl inside)))))
  | @reserved kind depends reserved =>
      by_cases own : name ∈ ownNames model
      · rcases List.mem_cons.mp own with same | parameter
        · exact .inl (same.trans (declared_of_bind bound).1.symm)
        · exact .inr (.inl (.inl (.inl parameter)))
      · exact .inr (.inr (.inr ⟨kind, depends, own⟩))

/-- The names of a bound model and of its members are legal. What else stands in its declaration is
legal, too, unless it is copied from the model unchecked: so all of it is legal exactly if the type
parameters are and nothing that the model depends on has a reserved word for a name. -/
theorem identifiers_isLegal_iff (bound : bind context model = .ok declaration) :
    (∀ name ∈ declaration.name :: declaration.memberNames, IsLegal name) ∧
    (∀ name, name ∈ declaration.identifiers ∧ ¬ IsLegal name ↔ IsUnchecked model name) ∧
    ((∀ name ∈ declaration.identifiers, IsLegal name) ↔
      (∀ name, model.HasTypeParameter name → IsLegal name) ∧
        ∀ reference, model.DependsOn reference → isReserved reference.name = false) := by
  have copied (name : String) :
      name ∈ declaration.identifiers ∧ ¬ IsLegal name ↔ IsUnchecked model name :=
    ⟨fun ⟨member, illegal⟩ => isUnchecked_of_mem_identifiers bound member illegal,
      fun unchecked => ⟨unchecked.mem_identifiers bound, unchecked.not_isLegal⟩⟩
  refine ⟨List.forall_mem_cons.mpr
    ⟨isLegal_name_of_bind bound, isLegal_of_mem_memberNames bound⟩, copied, ?_, ?_⟩
  · intro legal
    have checked (name : String) : ¬ IsUnchecked model name := fun unchecked =>
      have ⟨member, illegal⟩ := (copied name).mpr unchecked
      illegal (legal name member)
    refine ⟨fun name own => ?_, fun reference depends => ?_⟩
    · by_contra illegal
      exact checked name (.parameter own illegal)
    · rw [← Bool.not_eq_true]
      exact fun reserved => checked reference.name (.reserved depends reserved)
  · rintro ⟨parameters, unreserved⟩ name member
    by_contra illegal
    cases (copied name).mp ⟨member, illegal⟩ with
    | parameter own illegal => exact illegal (parameters name own)
    | reserved depends reserved =>
        exact Bool.false_ne_true ((unreserved _ depends).symm.trans reserved)

end

theorem identifiers_isLegal_page :
    let context : Context := { layout := { root := ⟨"out"⟩ } }
    let model : Model := .ofClass {
      name := "Page"
      baseClass := some (.reference "Entity" .model [])
      typeParameter := some "T"
      properties := [⟨"Class", .collection (.typeParameter "T")⟩] }
    ∃ declaration, bind context model = .ok declaration ∧
      declaration.identifiers = ["Page", "T", "_class", "Entity", "T", "Entity"] ∧
      ∀ name ∈ declaration.identifiers, IsLegal name := by
  intro context model
  have evaluated : (bind context model).map Target.Declaration.identifiers =
      .ok ["Page", "T", "_class", "Entity", "T", "Entity"] := by
    decide +kernel
  obtain ⟨declaration, bound, names⟩ := Except.map_eq_ok_iff.mp evaluated
  have parameters : ∀ name, model.HasTypeParameter name → name = "T" := by
    rintro name (own | ⟨type, member, inside⟩)
    · simpa [model, typeParameters] using own
    · rcases List.mem_pair.mp member with rfl | rfl
      · simp [Source.TypeExpr.preorder, Source.TypeExpr.preorderOfAll] at inside
      · simpa [Source.TypeExpr.preorder] using inside
  have references : ∀ reference, model.DependsOn reference → reference = ⟨"Entity", .model⟩ := by
    rintro reference (inside | listed)
    · simpa [model, Model.refersTo_ofClass_iff] using inside
    · simp [model, Model.listed] at listed
  refine ⟨declaration, bound, names, (identifiers_isLegal_iff bound).2.2.mpr ⟨?_, ?_⟩⟩
  · intro name own
    rw [parameters name own]
    decide
  · intro reference depends
    rw [references reference depends]
    decide

/-- A class may refer to a type by a reserved word, and then imports it by that name. -/
theorem not_identifiers_isLegal_reserved :
    let context : Context := { layout := { root := ⟨"out"⟩ } }
    let model : Model := .ofClass {
      name := "Page"
      properties := [⟨"Item", .reference "class" .model []⟩] }
    ∃ declaration, bind context model = .ok declaration ∧
      declaration.identifiers = ["Page", "item", "class", "class"] ∧
      ¬ ∀ name ∈ declaration.identifiers, IsLegal name := by
  intro context model
  have evaluated : (bind context model).map Target.Declaration.identifiers =
      .ok ["Page", "item", "class", "class"] := by
    decide +kernel
  obtain ⟨declaration, bound, names⟩ := Except.map_eq_ok_iff.mp evaluated
  refine ⟨declaration, bound, names, fun legal => ?_⟩
  have word : ¬ IsLegal "class" := by decide
  exact word (legal "class" (by simp [names]))

end Binding

end ApiBindings
