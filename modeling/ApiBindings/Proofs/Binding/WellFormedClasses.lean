import ApiBindings.Proofs.Binding.Imports
import ApiBindings.Proofs.Binding.ServiceMembers
import ApiBindings.Proofs.Identifier.FileCase
import Mathlib.Data.List.TakeWhile

/-!
# Well-formed classes

A class is bound exactly if it is well formed, which is said of the class alone: nothing about it
depends on the layout, or on the order in which its parts are looked at.  The order only decides
which fault is reported, and when that is a collision, the properties before it are free of faults.
-/

namespace ApiBindings

open Identifier (isValid isReserved toMemberCase)

/-! ## Names -/

theorem Identifier.exists_toMemberCase_iff {name : String} :
    (∃ converted, toMemberCase name = .ok converted) ↔ ∃ c ∈ name.toList, c ≠ '@' := by
  have left : name.toList.dropWhile (· == '@') = [] ↔ ∀ c ∈ name.toList, c = '@' := by
    simp [List.dropWhile_eq_nil_iff]
  unfold toMemberCase
  split
  · rename_i empty
    have all := left.mp empty
    simpa using all
  · rename_i c rest kept
    have some : ¬ ∀ c ∈ name.toList, c = '@' := by
      rw [← left, kept]
      exact List.cons_ne_nil c rest
    simpa using some

theorem Identifier.checkDeclared_eq_ok_iff {name : String} {checked : Unit} :
    checkDeclared name = .ok checked ↔ isValid name = true ∧ isReserved name = false := by
  constructor
  · intro declared
    have valid := Binding.isValid_of_checkDeclared declared
    refine ⟨valid, ?_⟩
    cases reserved : isReserved name with
    | false => rfl
    | true =>
        unfold checkDeclared at declared
        split at declared
        · cases declared
        · simp [valid] at declared
  · rintro ⟨valid, unreserved⟩
    have nonempty : name.isEmpty = false := by
      cases empty : name.isEmpty with
      | false => rfl
      | true =>
          rw [String.isEmpty_iff.mp empty] at valid
          cases valid
    simp [checkDeclared, nonempty, valid, unreserved]

namespace Binding

open Source (Model Property TypeExpr TypeReference)

/-- A type that has a counterpart. -/
def IsMapped (dates : DateMapping) (type : TypeExpr) : Prop :=
  ∃ mapped, mapType dates type = .ok mapped

/-- A type that an import can name: an identifier with more in it than underscores. -/
structure IsImportable (reference : TypeReference) : Prop where
  valid : isValid reference.name = true
  spelled : ∃ c ∈ reference.name.toList, c ≠ '_'

/-- Properties without a fault in a scope in which some names are taken. -/
structure FitsScope (dates : DateMapping) (taken : List String) (properties : List Property) :
    Prop where
  mapped : ∀ property ∈ properties, IsMapped dates property.type
  /-- A leading `@` is no part of a name. -/
  named : ∀ property ∈ properties, ∃ c ∈ property.name.toList, c ≠ '@'
  distinct : properties.Pairwise fun first second =>
    toMemberCase first.name ≠ toMemberCase second.name
  free : ∀ property ∈ properties, ∀ name ∈ taken, toMemberCase property.name ≠ .ok name

/-- What a class is like that can be bound. -/
structure IsWellFormed (dates : DateMapping) (model : Source.Class) : Prop where
  valid : isValid model.name = true
  unreserved : isReserved model.name = false
  /-- Only what is referred to can be a base class. -/
  base : ∀ base, model.baseClass = some base →
    (∃ name kind arguments, base = .reference name kind arguments) ∧ IsMapped dates base
  properties : FitsScope dates [] model.properties
  /-- The class itself and its type parameter are not imported. -/
  importable : ∀ reference, (Model.ofClass model).DependsOn reference →
    reference.name ∉ ownNames (.ofClass model) → IsImportable reference

/-- A property, as it stands in the declaration. -/
structure Declares (dates : DateMapping) (source : Property) (property : Target.Property) :
    Prop where
  name : toMemberCase source.name = .ok property.name
  type : ∃ mapped, mapType dates source.type = .ok mapped ∧ property.type = some mapped.type
  isPublic : property.isPrivate = false
  uninitialized : property.initialValue = none

/-- A class, as it is declared part by part. -/
structure DeclaresClass (dates : DateMapping) (model : Source.Class)
    (declaration : Target.DataClass) : Prop where
  name : declaration.name = model.name
  typeParameters : declaration.typeParameters = model.typeParameter.toList
  base : Option.Rel (fun source type => ∃ mapped, mapType dates source = .ok mapped ∧
    mapped.type = type) model.baseClass declaration.baseClass
  properties : List.Forall₂ (Declares dates) model.properties declaration.properties

/-- The first property whose name is taken by one before it. -/
structure FirstCollision (dates : DateMapping) (properties before : List Property)
    (earlier later : Property) (converted : String) : Prop where
  /-- It stands right behind the properties before it. -/
  position : before ++ [later] <+: properties
  fits : FitsScope dates [] before
  member : earlier ∈ before
  name : toMemberCase earlier.name = .ok converted
  same : toMemberCase later.name = .ok converted

variable {dates : DateMapping} {layout : Layout} {consumer : Category}

/-! ## Imports -/

theorem importOf_ok_iff {reference : TypeReference} :
    (∃ new, importOf layout consumer reference = .ok new) ↔ IsImportable reference := by
  cases valid : isValid reference.name with
  | false =>
      constructor
      · rintro ⟨new, found⟩
        simp [importOf, valid] at found
      · rintro ⟨named, -⟩
        rw [valid] at named
        cases named
  | true =>
      have resolves : (∃ path, layout.importPath? consumer reference.name
          reference.kind.category = some path) ↔
          ∃ stem, Identifier.toFileCase reference.name = .ok stem := by
        simp only [Layout.importPath?_eq_some_iff]
        constructor
        · rintro ⟨path, stem, cased, -⟩
          exact ⟨stem, cased⟩
        · rintro ⟨stem, cased⟩
          exact ⟨_, stem, cased, rfl⟩
      rw [Identifier.exists_toFileCase_iff valid] at resolves
      constructor
      · rintro ⟨new, found⟩
        exact ⟨valid, resolves.mp ⟨new.path, (importOf_eq_ok found).2⟩⟩
      · rintro ⟨-, spelled⟩
        obtain ⟨path, found⟩ := resolves.mpr spelled
        exact ⟨⟨[reference.name], path⟩, by simp [importOf, valid, found]⟩

theorem importAll_ok_iff {own : List String} {references : List TypeReference}
    {before : Target.ImportSet} :
    (∃ after, importAll layout consumer own references before = .ok after) ↔
      ∀ reference ∈ references, reference.name ∉ own → IsImportable reference := by
  induction references generalizing before with
  | nil => simp [importAll]
  | cons reference rest ih =>
      rw [List.forall_mem_cons, importAll]
      by_cases known : reference.name ∈ own
      · simp [known, ih]
      · have here : (∃ new, importOf layout consumer reference = .ok new) ↔
            IsImportable reference := importOf_ok_iff
        rw [if_neg (by simpa using known), ← here, Except.exists_bind_eq_ok_iff]
        constructor
        · rintro ⟨new, found, imported⟩
          exact ⟨fun _ => ⟨new, found⟩, ih.mp imported⟩
        · rintro ⟨importable, later⟩
          obtain ⟨new, found⟩ := importable known
          exact ⟨new, found, ih.mpr later⟩

/-! ## Base classes -/

theorem bindBase_ok_iff {base : Option TypeExpr} :
    (∃ bound, bindBase dates base = .ok bound) ↔ ∀ type, base = some type →
      (∃ name kind arguments, type = .reference name kind arguments) ∧ IsMapped dates type := by
  cases base with
  | none => simp [bindBase]
  | some type =>
      cases type with
      | reference name kind arguments =>
          rw [bindBase, Except.exists_bind_eq_ok_iff]
          constructor
          · rintro ⟨mapped, found, -⟩ type same
            cases same
            exact ⟨⟨name, kind, arguments, rfl⟩, mapped, found⟩
          · intro each
            obtain ⟨-, mapped, found⟩ := each _ rfl
            exact ⟨mapped, found, _, rfl⟩
      | _ => simp [bindBase]

theorem rel_of_bindBase {base : Option TypeExpr} {bound : Mapped (Option Target.TypeExpr)}
    (found : bindBase dates base = .ok bound) :
    Option.Rel (fun source type => ∃ mapped, mapType dates source = .ok mapped ∧
      mapped.type = type) base bound.type := by
  unfold bindBase at found
  split at found
  · cases found
    exact .none
  · split at found
    · obtain ⟨mapped, own, done⟩ := Except.bind_eq_ok_iff.mp found
      cases done
      exact .some ⟨mapped, own, rfl⟩
    · cases found

/-! ## Properties -/

theorem fitsScope_cons_iff {taken : List String} {property : Property} {rest : List Property} :
    FitsScope dates taken (property :: rest) ↔ IsMapped dates property.type ∧
      ∃ name, toMemberCase property.name = .ok name ∧ name ∉ taken ∧
        FitsScope dates (name :: taken) rest := by
  constructor
  · rintro ⟨mapped, named, distinct, free⟩
    rw [List.forall_mem_cons] at mapped named free
    rw [List.pairwise_cons] at distinct
    obtain ⟨name, converted⟩ := Identifier.exists_toMemberCase_iff.mpr named.1
    refine ⟨mapped.1, name, converted, fun member => free.1 name member converted, ?_⟩
    exact {
      mapped := mapped.2
      named := named.2
      distinct := distinct.2
      free := by
        intro other member
        rw [List.forall_mem_cons, ← converted]
        exact ⟨(distinct.1 other member).symm, free.2 other member⟩ }
  · rintro ⟨mapped, name, converted, fresh, fits⟩
    exact {
      mapped := List.forall_mem_cons.mpr ⟨mapped, fits.mapped⟩
      named := List.forall_mem_cons.mpr
        ⟨Identifier.exists_toMemberCase_iff.mp ⟨name, converted⟩, fits.named⟩
      distinct := by
        refine List.pairwise_cons.mpr ⟨fun other member same => ?_, fits.distinct⟩
        exact fits.free other member name List.mem_cons_self (same.symm.trans converted)
      free := by
        refine List.forall_mem_cons.mpr ⟨fun other member same => ?_, fun other member => ?_⟩
        · cases converted.symm.trans same
          exact fresh member
        · exact (List.forall_mem_cons.mp (fits.free other member)).2 }

/-- A name that is free is converted and claimed. -/
theorem Scope.convert_of_not_mem {scope : Scope} {source name : String}
    (converted : toMemberCase source = .ok name) (fresh : name ∉ scope.names) :
    scope.convert source = .ok (name, ⟨(name, source) :: scope.claimed⟩) := by
  have unknown : scope.claimed.lookup name = none := by
    rw [List.lookup_eq_none_iff]
    intro entry member
    apply bne_iff_ne.mpr
    rintro rfl
    exact fresh (List.mem_map.mpr ⟨entry, member, rfl⟩)
  have claimed : scope.claim source name = .ok ⟨(name, source) :: scope.claimed⟩ := by
    rw [claim, unknown]
  exact Except.bind_eq_ok_iff.mpr ⟨name, converted,
    Except.bind_eq_ok_iff.mpr ⟨_, claimed, rfl⟩⟩

theorem bindProperties_ok_iff {scope : Scope} {properties : List Property} :
    (∃ bound, bindProperties dates scope properties = .ok bound) ↔
      FitsScope dates scope.names properties := by
  induction properties generalizing scope with
  | nil => exact ⟨fun _ => ⟨by simp, by simp, .nil, by simp⟩, fun _ => ⟨_, rfl⟩⟩
  | cons property rest ih =>
      rw [fitsScope_cons_iff, bindProperties, Except.exists_bind_eq_ok_iff]
      constructor
      · rintro ⟨type, mapped, found⟩
        obtain ⟨⟨name, after⟩, converted, found⟩ := Except.exists_bind_eq_ok_iff.mp found
        obtain ⟨later, boundRest, -⟩ := Except.exists_bind_eq_ok_iff.mp found
        obtain ⟨spelled, fresh, taken⟩ := Scope.convert_eq_ok (liftName_eq_ok_iff.mp converted)
        exact ⟨⟨type, mapped⟩, name, spelled, fresh, taken ▸ ih.mp ⟨later, boundRest⟩⟩
      · rintro ⟨⟨type, mapped⟩, name, spelled, fresh, fits⟩
        let after : Scope := ⟨(name, property.name) :: scope.claimed⟩
        have converted : scope.convert property.name = .ok (name, after) :=
          Scope.convert_of_not_mem spelled fresh
        have continued : ∃ later, bindProperties dates after rest = .ok later := ih.mpr fits
        obtain ⟨later, boundRest⟩ := continued
        refine ⟨type, mapped, Except.exists_bind_eq_ok_iff.mpr ⟨(name, after), ?_⟩⟩
        exact ⟨liftName_eq_ok_iff.mpr converted,
          Except.exists_bind_eq_ok_iff.mpr ⟨later, boundRest, _, rfl⟩⟩

theorem declares_of_bindProperties {scope : Scope} {properties : List Property}
    {bound : Mapped (List Target.Property)}
    (found : bindProperties dates scope properties = .ok bound) :
    List.Forall₂ (Declares dates) properties bound.type := by
  induction properties generalizing scope bound with
  | nil =>
      cases found
      exact .nil
  | cons property rest ih =>
      obtain ⟨type, mapped, found⟩ := Except.bind_eq_ok_iff.mp found
      obtain ⟨⟨name, after⟩, converted, found⟩ := Except.bind_eq_ok_iff.mp found
      obtain ⟨later, boundRest, done⟩ := Except.bind_eq_ok_iff.mp found
      cases done
      obtain ⟨spelled, -, -⟩ := Scope.convert_eq_ok (liftName_eq_ok_iff.mp converted)
      exact .cons ⟨spelled, ⟨type, mapped, rfl⟩, rfl, rfl⟩ (ih boundRest)

/-- What follows for an item from its counterpart holds of all items. -/
theorem forall_mem_of_forall₂ {α β : Type} {related : α → β → Prop} {holds : β → Prop}
    (follows : ∀ source target, related source target → holds target) {sources : List α}
    {targets : List β} (all : List.Forall₂ related sources targets) :
    ∀ target ∈ targets, holds target := by
  have both := all.flip.imp fun target source own => And.intro (follows source target own) own
  exact ((List.forall₂_and_left targets sources).mp both).1

/-! ## Faults -/

/-- A type fails to be mapped for what it is, not for a name. -/
theorem unsupported_of_mapType {type : TypeExpr} {error : BindError}
    (failed : mapType dates type = .error error) : ∃ kind, error = .unsupportedKind kind := by
  obtain ⟨kind, same, -⟩ := mapType_eq_error_iff.mp failed
  exact ⟨kind, same⟩

theorem unsupported_of_bindBase {base : Option TypeExpr} {error : BindError}
    (failed : bindBase dates base = .error error) : ∃ kind, error = .unsupportedKind kind := by
  unfold bindBase at failed
  split at failed
  · cases failed
  · split at failed
    · rcases Except.bind_eq_error_iff.mp failed with own | ⟨mapped, -, done⟩
      · exact unsupported_of_mapType own
      · cases done
    · cases failed
      exact ⟨_, rfl⟩

theorem invalid_of_importAll {own : List String} {references : List TypeReference}
    {before : Target.ImportSet} {error : BindError}
    (failed : importAll layout consumer own references before = .error error) :
    ∃ name, error = .invalidReference name := by
  induction references generalizing before with
  | nil => cases failed
  | cons reference rest ih =>
      rw [importAll] at failed
      split at failed
      · exact ih failed
      · rcases Except.bind_eq_error_iff.mp failed with own | ⟨new, -, later⟩
        · unfold importOf at own
          split at own
          · cases own
            exact ⟨_, rfl⟩
          · split at own
            · cases own
            · cases own
              exact ⟨_, rfl⟩
        · exact ih later

theorem liftName_eq_error_iff {α : Type} {named : Except NameError α} {error : NameError} :
    liftName named = .error (.naming error) ↔ named = .error error := by
  cases named <;> simp [liftName]

/-- A name collides with the one it was claimed for before. -/
theorem Scope.convert_eq_collision {scope : Scope} {source first second converted : String}
    (failed : scope.convert source = .error (.collision first second converted)) :
    second = source ∧ toMemberCase source = .ok converted ∧
      scope.claimed.lookup converted = some first := by
  rcases Except.bind_eq_error_iff.mp failed with unnamed | ⟨name, spelled, failed⟩
  · unfold toMemberCase at unnamed
    split at unnamed <;> cases unnamed
  · rcases Except.bind_eq_error_iff.mp failed with clash | ⟨after, -, done⟩
    · unfold claim at clash
      split at clash
      · rename_i owner known
        cases clash
        exact ⟨rfl, spelled, known⟩
      · cases clash
    · cases done

theorem checkDeclared_ne_collision (name first second converted : String) :
    Identifier.checkDeclared name ≠ .error (.collision first second converted) := by
  unfold Identifier.checkDeclared
  split
  · rintro ⟨⟩
  · split
    · rintro ⟨⟩
    · split <;> rintro ⟨⟩

/-- What bound properties collide with is a name of the scope around them or of one before. -/
theorem collision_of_bindProperties {scope : Scope} {properties : List Property}
    {first second converted : String}
    (failed : bindProperties dates scope properties =
      .error (.naming (.collision first second converted))) :
    ∃ before later, before ++ [later] <+: properties ∧ FitsScope dates scope.names before ∧
      later.name = second ∧ toMemberCase second = .ok converted ∧
      (scope.claimed.lookup converted = some first ∨
        ∃ earlier ∈ before, earlier.name = first ∧ toMemberCase first = .ok converted) := by
  induction properties generalizing scope with
  | nil => cases failed
  | cons property rest ih =>
      rcases Except.bind_eq_error_iff.mp failed with unmapped | ⟨type, mapped, failed⟩
      · obtain ⟨kind, other⟩ := unsupported_of_mapType unmapped
        cases other
      rcases Except.bind_eq_error_iff.mp failed with clash | ⟨⟨name, after⟩, claimed, failed⟩
      · obtain ⟨rfl, spelled, taken⟩ := Scope.convert_eq_collision (liftName_eq_error_iff.mp clash)
        refine ⟨[], property, by simp, ?_, rfl, spelled, .inl taken⟩
        exact ⟨by simp, by simp, .nil, by simp⟩
      rcases Except.bind_eq_error_iff.mp failed with later | ⟨bound, -, done⟩
      · obtain ⟨spelled, fresh, -⟩ := Scope.convert_eq_ok (liftName_eq_ok_iff.mp claimed)
        have next := Scope.convert_of_not_mem spelled fresh
        cases (liftName_eq_ok_iff.mp claimed).symm.trans next
        obtain ⟨before, clashing, position, fits, same, converts, owner⟩ := ih later
        refine ⟨property :: before, clashing, ?_, ?_, same, converts, ?_⟩
        · exact List.cons_prefix_cons.mpr ⟨rfl, position⟩
        · exact fitsScope_cons_iff.mpr ⟨⟨type, mapped⟩, name, spelled, fresh, fits⟩
        · rcases owner with taken | ⟨earlier, member, own⟩
          · rw [List.lookup_cons] at taken
            split at taken
            · rename_i matching
              cases taken
              obtain rfl := beq_iff_eq.mp matching
              exact .inr ⟨property, List.mem_cons_self, rfl, spelled⟩
            · exact .inl taken
          · exact .inr ⟨earlier, List.mem_cons_of_mem _ member, own⟩
      · cases done

/-- Properties that have a scope to themselves collide with properties only. -/
theorem firstCollision_of_bindProperties {properties : List Property}
    {first second converted : String}
    (failed : bindProperties dates {} properties =
      .error (.naming (.collision first second converted))) :
    ∃ before earlier later, FirstCollision dates properties before earlier later converted ∧
      earlier.name = first ∧ later.name = second := by
  obtain ⟨before, later, position, fits, rfl, same, owner⟩ := collision_of_bindProperties failed
  rcases owner with taken | ⟨earlier, member, rfl, name⟩
  · cases taken
  · exact ⟨before, earlier, later, ⟨position, fits, member, name, same⟩, rfl, rfl⟩

/-! ## Classes -/

section

variable {context : Context} {model : Source.Class}

/-- What is added to the imports of a class is what it depends on. -/
theorem mem_references_of_class {base : Mapped (Option Target.TypeExpr)}
    {properties : Mapped (List Target.Property)}
    (baseBound : bindBase dates model.baseClass = .ok base)
    (propertiesBound : bindProperties dates {} model.properties = .ok properties)
    {reference : TypeReference} :
    reference ∈ base.references ++ properties.references ++ model.imports ↔
      (Model.ofClass model).DependsOn reference := by
  rw [List.mem_append, List.mem_append, mem_references_of_bindBase baseBound,
    mem_references_of_bindProperties propertiesBound, Model.DependsOn,
    Source.Model.refersTo_ofClass_iff, Model.listed]

theorem bindClass_ok_iff :
    (∃ declaration, bindClass context model = .ok declaration) ↔
      IsWellFormed context.dates model := by
  constructor
  · rintro ⟨declaration, bound⟩
    obtain ⟨declared, base, properties, imports, baseBound, propertiesBound, imported, -⟩ :=
      bindClass_eq_ok bound
    obtain ⟨valid, unreserved⟩ := Identifier.checkDeclared_eq_ok_iff.mp declared
    exact {
      valid
      unreserved
      base := bindBase_ok_iff.mp ⟨base, baseBound⟩
      properties := bindProperties_ok_iff.mp ⟨properties, propertiesBound⟩
      importable := by
        intro reference depends foreign
        exact importAll_ok_iff.mp ⟨imports, imported⟩ reference
          ((mem_references_of_class baseBound propertiesBound).mpr depends) foreign }
  · intro formed
    have declared : Identifier.checkDeclared model.name = .ok () :=
      Identifier.checkDeclared_eq_ok_iff.mpr ⟨formed.valid, formed.unreserved⟩
    obtain ⟨base, baseBound⟩ := bindBase_ok_iff.mpr formed.base
    have fits : ∃ properties,
        bindProperties context.dates {} model.properties = .ok properties :=
      bindProperties_ok_iff.mpr formed.properties
    obtain ⟨properties, propertiesBound⟩ := fits
    have imported : ∃ imports, importAll context.layout .model
        (model.name :: model.typeParameter.toList)
        (base.references ++ properties.references ++ model.imports) {} = .ok imports := by
      rw [importAll_ok_iff]
      intro reference member foreign
      exact formed.importable reference
        ((mem_references_of_class baseBound propertiesBound).mp member) foreign
    obtain ⟨imports, imported⟩ := imported
    have named : liftName (Identifier.checkDeclared model.name) = .ok () :=
      liftName_eq_ok_iff.mpr declared
    refine Except.exists_bind_eq_ok_iff.mpr ⟨(), named, ?_⟩
    refine Except.exists_bind_eq_ok_iff.mpr ⟨base, baseBound, ?_⟩
    refine Except.exists_bind_eq_ok_iff.mpr ⟨properties, propertiesBound, ?_⟩
    exact Except.exists_bind_eq_ok_iff.mpr ⟨imports, imported, _, rfl⟩

theorem declaresClass_of_bindClass {declaration : Target.DataClass}
    (bound : bindClass context model = .ok declaration) :
    DeclaresClass context.dates model declaration := by
  obtain ⟨-, base, properties, imports, baseBound, propertiesBound, -, rfl⟩ :=
    bindClass_eq_ok bound
  exact ⟨rfl, rfl, rel_of_bindBase baseBound, declares_of_bindProperties propertiesBound⟩

theorem firstCollision_of_bindClass {first second converted : String}
    (failed : bindClass context model =
      .error (.naming (.collision first second converted))) :
    ∃ before earlier later, FirstCollision context.dates model.properties before earlier later
      converted ∧ earlier.name = first ∧ later.name = second := by
  rcases Except.bind_eq_error_iff.mp failed with undeclared | ⟨⟨⟩, -, failed⟩
  · exact absurd (liftName_eq_error_iff.mp undeclared) (checkDeclared_ne_collision _ _ _ _)
  rcases Except.bind_eq_error_iff.mp failed with unmapped | ⟨base, -, failed⟩
  · obtain ⟨kind, other⟩ := unsupported_of_bindBase unmapped
    cases other
  rcases Except.bind_eq_error_iff.mp failed with clash | ⟨properties, -, failed⟩
  · exact firstCollision_of_bindProperties clash
  rcases Except.bind_eq_error_iff.mp failed with unresolved | ⟨imports, -, done⟩
  · obtain ⟨name, other⟩ := invalid_of_importAll unresolved
    cases other
  · cases done

end

/-- A class is bound exactly if it is well formed, and declared part by part.  A collision is that
of the first property whose name repeats one before it, with the property that has this name. -/
theorem bindClass_sound_and_complete (context : Context) (model : Source.Class) :
    ((∃ declaration, bindClass context model = .ok declaration) ↔
      IsWellFormed context.dates model) ∧
    (∀ declaration, bindClass context model = .ok declaration →
      DeclaresClass context.dates model declaration) ∧
    ∀ first second converted,
      bindClass context model = .error (.naming (.collision first second converted)) →
        ∃ before earlier later, FirstCollision context.dates model.properties before earlier later
          converted ∧ earlier.name = first ∧ later.name = second :=
  ⟨bindClass_ok_iff, fun _ => declaresClass_of_bindClass,
    fun _ _ _ => firstCollision_of_bindClass⟩

theorem bindClass_sound_and_complete_page :
    let context : Context := { layout := { root := ⟨"out"⟩ } }
    let page : Source.Class := {
      name := "Page"
      baseClass := some (.reference "Listing" .model [.typeParameter "T"])
      typeParameter := some "T"
      properties := [⟨"Items", .collection (.typeParameter "T")⟩,
        ⟨"@next", .nullable (.reference "Page" .model [.typeParameter "T"])⟩] }
    let clashing : Source.Class := {
      name := "Page", properties := [⟨"URL", .primitive "string"⟩, ⟨"@Url", .primitive "string"⟩] }
    (∃ declaration, bindClass context page = .ok declaration ∧
      declaration.properties.map (·.name) = ["items", "next"] ∧
      IsWellFormed .date page ∧ DeclaresClass .date page declaration) ∧
    ∃ before earlier later, FirstCollision .date clashing.properties before earlier later "url" ∧
      earlier.name = "URL" ∧ later.name = "@Url" := by
  intro context page clashing
  have evaluated : (bindClass context page).map (·.properties.map (·.name)) =
      .ok ["items", "next"] := by
    decide +kernel
  obtain ⟨declaration, bound, names⟩ := Except.map_eq_ok_iff.mp evaluated
  obtain ⟨accepted, declared, -⟩ := bindClass_sound_and_complete context page
  refine ⟨⟨declaration, bound, names, accepted.mp ⟨declaration, bound⟩,
    declared declaration bound⟩, ?_⟩
  have failed : bindClass context clashing = .error (.naming (.collision "URL" "@Url" "url")) := by
    have url : toMemberCase "URL" = .ok "url" := by decide +kernel
    have urlToo : toMemberCase "@Url" = .ok "url" := by decide +kernel
    have known : primitive? "string" = some (.fixed .string) := by decide +kernel
    have declares : Identifier.checkDeclared "Page" = .ok () := by decide +kernel
    simp only [bindClass, bindBase, bindProperties, clashing, declares, mapType, known,
      Scope.convert, url, urlToo]
    rfl
  exact (bindClass_sound_and_complete context clashing).2.2 _ _ _ failed

end Binding

end ApiBindings
