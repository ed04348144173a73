import ApiBindings.Binding
import ApiBindings.Proofs.Binding.SupportedTypes

/-!
# References

What a type refers to, told by where it stands and not by how it is collected: a reference counts at
any depth, type parameters and built-in types count nowhere.  The types of a model are collected
without missing or adding a reference.
-/

namespace ApiBindings.Source

/-- A type refers to another one, or is it. -/
inductive TypeExpr.RefersTo (reference : TypeReference) : TypeExpr → Prop where
  | here (arguments : List TypeExpr) :
      RefersTo reference (.reference reference.name reference.kind arguments)
  | argument (name : String) (kind : DependencyKind) {arguments : List TypeExpr}
      {argument : TypeExpr} (member : argument ∈ arguments) (inside : RefersTo reference argument) :
      RefersTo reference (.reference name kind arguments)
  | nullable {inner : TypeExpr} (inside : RefersTo reference inner) :
      RefersTo reference (.nullable inner)
  | collection {element : TypeExpr} (inside : RefersTo reference element) :
      RefersTo reference (.collection element)
  | key {key : TypeExpr} (value : TypeExpr) (inside : RefersTo reference key) :
      RefersTo reference (.dictionary key value)
  | value (key : TypeExpr) {value : TypeExpr} (inside : RefersTo reference value) :
      RefersTo reference (.dictionary key value)

/-- A model refers to a type in its base class, a property, a result or a parameter. -/
inductive Model.RefersTo (reference : TypeReference) : Model → Prop where
  | base {model : Class} {base : TypeExpr} (own : model.baseClass = some base)
      (inside : base.RefersTo reference) : RefersTo reference (.ofClass model)
  | property {model : Class} {property : Property} (member : property ∈ model.properties)
      (inside : property.type.RefersTo reference) : RefersTo reference (.ofClass model)
  | result {model : Service} {method : Method} (member : method ∈ model.methods)
      (inside : method.returnType.RefersTo reference) : RefersTo reference (.ofService model)
  | parameter {model : Service} {method : Method} {parameter : Parameter}
      (member : method ∈ model.methods) (own : parameter ∈ method.parameters)
      (inside : parameter.type.RefersTo reference) : RefersTo reference (.ofService model)

/-- The types that a model is declared with. -/
def Model.types : Model → List TypeExpr
  | .ofClass model => model.baseClass.toList ++ model.properties.map (·.type)
  | .ofEnum _ => []
  | .ofService model => model.methods.flatMap fun method =>
      method.returnType :: method.parameters.map (·.type)

/-- The types that a model lists beyond those it refers to. -/
def Model.listed : Model → List TypeReference
  | .ofClass model => model.imports
  | .ofEnum _ => []
  | .ofService model => model.imports

/-- A model depends on the types it refers to and on those it lists. -/
def Model.DependsOn (model : Model) (reference : TypeReference) : Prop :=
  model.RefersTo reference ∨ reference ∈ model.listed

namespace TypeExpr

variable {reference : TypeReference}

@[simp] theorem not_refersTo_primitive (name : String) :
    ¬ (TypeExpr.primitive name).RefersTo reference := by
  rintro ⟨⟩

@[simp] theorem not_refersTo_typeParameter (name : String) :
    ¬ (TypeExpr.typeParameter name).RefersTo reference := by
  rintro ⟨⟩

@[simp] theorem not_refersTo_unknown : ¬ TypeExpr.unknown.RefersTo reference := by
  rintro ⟨⟩

@[simp] theorem refersTo_nullable_iff {inner : TypeExpr} :
    (TypeExpr.nullable inner).RefersTo reference ↔ inner.RefersTo reference := by
  constructor
  · rintro ⟨⟩
    assumption
  · exact .nullable

@[simp] theorem refersTo_collection_iff {element : TypeExpr} :
    (TypeExpr.collection element).RefersTo reference ↔ element.RefersTo reference := by
  constructor
  · rintro ⟨⟩
    assumption
  · exact .collection

@[simp] theorem refersTo_dictionary_iff {key value : TypeExpr} :
    (TypeExpr.dictionary key value).RefersTo reference ↔
      key.RefersTo reference ∨ value.RefersTo reference := by
  constructor
  · intro refers
    cases refers with
    | key value inside => exact .inl inside
    | value key inside => exact .inr inside
  · rintro (inside | inside)
    · exact .key value inside
    · exact .value key inside

@[simp] theorem refersTo_reference_iff {name : String} {kind : DependencyKind}
    {arguments : List TypeExpr} :
    (TypeExpr.reference name kind arguments).RefersTo reference ↔
      reference = ⟨name, kind⟩ ∨ ∃ argument ∈ arguments, argument.RefersTo reference := by
  constructor
  · intro refers
    cases refers with
    | here => exact .inl rfl
    | argument name kind member inside => exact .inr ⟨_, member, inside⟩
  · rintro (rfl | ⟨argument, member, inside⟩)
    · exact .here arguments
    · exact .argument name kind member inside

mutual

/-- A type refers to what one of its parts does. -/
theorem mem_preorder_iff : (type : TypeExpr) →
    (reference ∈ type.preorder.filterMap reference? ↔ type.RefersTo reference) := by
  intro type
  cases type with
  | primitive name => simp [preorder, reference?]
  | nullable inner => simpa [preorder, reference?] using mem_preorder_iff inner
  | collection element => simpa [preorder, reference?] using mem_preorder_iff element
  | dictionary key value =>
      have inKey := mem_preorder_iff key
      have inValue := mem_preorder_iff value
      simp only [List.mem_filterMap] at inKey inValue
      simp [preorder, reference?, ← inKey, ← inValue, or_and_right, exists_or]
  | reference name kind arguments =>
      have inside := mem_preorderOfAll_iff arguments
      simp only [List.mem_filterMap] at inside
      simp [preorder, reference?, ← inside, eq_comm]
  | typeParameter name => simp [preorder, reference?]
  | unknown => simp [preorder, reference?]

theorem mem_preorderOfAll_iff : (types : List TypeExpr) →
    (reference ∈ (preorderOfAll types).filterMap reference? ↔
      ∃ type ∈ types, type.RefersTo reference) := by
  intro types
  cases types with
  | nil => simp [preorderOfAll]
  | cons type rest =>
      have first := mem_preorder_iff type
      have others := mem_preorderOfAll_iff rest
      rw [preorderOfAll, List.filterMap_append, List.mem_append, first, others]
      simp

end

end TypeExpr

namespace Model

variable {reference : TypeReference}

theorem refersTo_ofClass_iff {model : Class} :
    (Model.ofClass model).RefersTo reference ↔
      (∃ base, model.baseClass = some base ∧ base.RefersTo reference) ∨
        ∃ property ∈ model.properties, property.type.RefersTo reference := by
  constructor
  · intro refers
    cases refers with
    | base own inside => exact .inl ⟨_, own, inside⟩
    | property member inside => exact .inr ⟨_, member, inside⟩
  · rintro (⟨base, own, inside⟩ | ⟨property, member, inside⟩)
    · exact .base own inside
    · exact .property member inside

theorem refersTo_ofService_iff {model : Service} :
    (Model.ofService model).RefersTo reference ↔
      ∃ method ∈ model.methods, method.returnType.RefersTo reference ∨
        ∃ parameter ∈ method.parameters, parameter.type.RefersTo reference := by
  constructor
  · intro refers
    cases refers with
    | result member inside => exact ⟨_, member, .inl inside⟩
    | parameter member own inside => exact ⟨_, member, .inr ⟨_, own, inside⟩⟩
  · rintro ⟨method, member, inside | ⟨parameter, own, inside⟩⟩
    · exact .result member inside
    · exact .parameter member own inside

theorem not_refersTo_ofEnum {model : Enum} : ¬ (Model.ofEnum model).RefersTo reference := by
  rintro ⟨⟩

end Model

end ApiBindings.Source

namespace ApiBindings.Binding

open Source

variable {dates : DateMapping} {reference : TypeReference}

/-! ## Types -/

/-- A mapped type comes with the references that occur in it. -/
theorem mem_references_of_mapType (type : TypeExpr) {mapped : Mapped Target.TypeExpr}
    (found : mapType dates type = .ok mapped) :
    reference ∈ mapped.references ↔ type.RefersTo reference := by
  rw [references_of_mapType found, TypeExpr.mem_preorder_iff]

/-! ## Members -/

theorem mem_references_of_bindBase {base : Option TypeExpr}
    {bound : Mapped (Option Target.TypeExpr)} (found : bindBase dates base = .ok bound) :
    reference ∈ bound.references ↔ ∃ type, base = some type ∧ type.RefersTo reference := by
  unfold bindBase at found
  split at found
  · cases found
    simp
  · split at found
    · obtain ⟨mapped, own, done⟩ := Except.bind_eq_ok_iff.mp found
      cases done
      simpa using mem_references_of_mapType _ own
    · cases found

theorem mem_references_of_bindProperties {scope : Scope} {properties : List Property}
    {bound : Mapped (List Target.Property)}
    (found : bindProperties dates scope properties = .ok bound) :
    reference ∈ bound.references ↔ ∃ property ∈ properties, property.type.RefersTo reference := by
  induction properties generalizing scope bound with
  | nil =>
      cases found
      simp
  | cons property rest ih =>
      obtain ⟨type, mapped, found⟩ := Except.bind_eq_ok_iff.mp found
      obtain ⟨⟨name, scope⟩, -, found⟩ := Except.bind_eq_ok_iff.mp found
      obtain ⟨others, boundRest, done⟩ := Except.bind_eq_ok_iff.mp found
      cases done
      simp [mem_references_of_mapType property.type mapped, ih boundRest]

theorem mem_references_of_bindParameters {scope : Scope} {parameters : List Parameter}
    {bound : Mapped (List Target.Parameter)}
    (found : bindParameters dates scope parameters = .ok bound) :
    reference ∈ bound.references ↔
      ∃ parameter ∈ parameters, parameter.type.RefersTo reference := by
  induction parameters generalizing scope bound with
  | nil =>
      cases found
      simp
  | cons parameter rest ih =>
      obtain ⟨type, mapped, found⟩ := Except.bind_eq_ok_iff.mp found
      obtain ⟨⟨name, scope⟩, -, found⟩ := Except.bind_eq_ok_iff.mp found
      obtain ⟨others, boundRest, done⟩ := Except.bind_eq_ok_iff.mp found
      cases done
      simp [mem_references_of_mapType parameter.type mapped, ih boundRest]

theorem mem_references_of_bindMethods {scope : Scope} {methods : List Method}
    {bound : Mapped (List Target.Method)} (found : bindMethods dates scope methods = .ok bound) :
    reference ∈ bound.references ↔ ∃ method ∈ methods, method.returnType.RefersTo reference ∨
      ∃ parameter ∈ method.parameters, parameter.type.RefersTo reference := by
  induction methods generalizing scope bound with
  | nil =>
      cases found
      simp
  | cons method rest ih =>
      obtain ⟨⟨name, scope⟩, -, found⟩ := Except.bind_eq_ok_iff.mp found
      obtain ⟨result, mapped, found⟩ := Except.bind_eq_ok_iff.mp found
      obtain ⟨parameters, boundParameters, found⟩ := Except.bind_eq_ok_iff.mp found
      obtain ⟨others, boundRest, done⟩ := Except.bind_eq_ok_iff.mp found
      cases done
      simp [mem_references_of_mapType method.returnType mapped,
        mem_references_of_bindParameters boundParameters, ih boundRest, or_assoc]

end ApiBindings.Binding
