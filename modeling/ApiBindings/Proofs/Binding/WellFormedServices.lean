import ApiBindings.Proofs.Binding.WellFormedClasses

/-!
# Well-formed services

A service is bound exactly if it is well formed, which is said of the service alone.  Its methods
share one scope, in which the route and the client have their names before any method has; each
method opens a scope of its own for its parameters.  In either scope names are claimed the way the
properties of a class claim them, so that methods and parameters are compared to properties here.
-/

namespace ApiBindings

open Identifier (isValid isReserved toMemberCase)

namespace Source

/-- A parameter has what a property has. -/
def Parameter.asProperty (parameter : Parameter) : Property :=
  ⟨parameter.name, parameter.type⟩

@[simp] theorem Parameter.name_asProperty (parameter : Parameter) :
    parameter.asProperty.name = parameter.name := rfl

@[simp] theorem Parameter.type_asProperty (parameter : Parameter) :
    parameter.asProperty.type = parameter.type := rfl

/-- What a method has of a property: a name, and a type that is the type of its result. -/
def Method.asProperty (method : Method) : Property :=
  ⟨method.name, method.returnType⟩

@[simp] theorem Method.name_asProperty (method : Method) :
    method.asProperty.name = method.name := rfl

@[simp] theorem Method.type_asProperty (method : Method) :
    method.asProperty.type = method.returnType := rfl

end Source

namespace Binding

open Source (Method Model Parameter)

/-- Methods without a fault in a scope in which some names are taken. -/
structure FitsMethods (dates : DateMapping) (taken : List String) (methods : List Method) :
    Prop where
  own : FitsScope dates taken (methods.map Method.asProperty)
  /-- A parameter may have the name of a method, or of another method's parameter. -/
  parameters : ∀ method ∈ methods, FitsScope dates [] (method.parameters.map Parameter.asProperty)

/-- What a service is like that can be bound. -/
structure IsWellFormedService (dates : DateMapping) (model : Source.Service) : Prop where
  valid : isValid model.name = true
  unreserved : isReserved model.name = false
  methods : FitsMethods dates [routeProperty, transportProperty] model.methods
  /-- A service may have the name of a type that it uses, which then is not imported. -/
  importable : ∀ reference, (Model.ofService model).DependsOn reference →
    reference.name ≠ model.name → IsImportable reference

/-- A parameter, as it stands in the declaration. -/
structure DeclaresParameter (dates : DateMapping) (source : Parameter)
    (parameter : Target.Parameter) : Prop where
  name : toMemberCase source.name = .ok parameter.name
  type : ∃ mapped, mapType dates source.type = .ok mapped ∧ parameter.type = mapped.type
  isPublic : parameter.isPrivate = false

/-- A method, as it stands in the declaration. -/
structure DeclaresMethod (dates : DateMapping) (source : Method) (method : Target.Method) :
    Prop where
  name : toMemberCase source.name = .ok method.name
  result : ∃ mapped, mapType dates source.returnType = .ok mapped ∧
    method.returnType = mapped.type
  verb : method.verb = some source.verb
  parameters : List.Forall₂ (DeclaresParameter dates) source.parameters method.parameters

/-- A service, as it is declared part by part. -/
structure DeclaresService (dates : DateMapping) (model : Source.Service)
    (declaration : Target.ServiceClass) : Prop where
  name : declaration.name = model.name
  decorators : declaration.decorators = ["Injectable"]
  /-- The route is a property without a declared type. -/
  properties : declaration.properties =
    [{ name := "baseUrl", isPrivate := true, initialValue := some model.route }]
  constructorParameters : declaration.constructorParameters =
    [{ name := "http", type := .reference "Http", isPrivate := true }]
  methods : List.Forall₂ (DeclaresMethod dates) model.methods declaration.methods

/-- How a method collides in a scope, behind methods that have claimed their names in it. -/
inductive Collides (dates : DateMapping) (scope : Scope) (before : List Method) (method : Method) :
    (first second converted : String) → Prop where
  /-- The name of the method is claimed before that of any method. -/
  | reserved {first converted : String} (claimed : scope.claimed.lookup converted = some first)
      (same : toMemberCase method.name = .ok converted) :
      Collides dates scope before method first method.name converted
  | method {earlier : Method} {converted : String} (member : earlier ∈ before)
      (name : toMemberCase earlier.name = .ok converted)
      (same : toMemberCase method.name = .ok converted) :
      Collides dates scope before method earlier.name method.name converted
  /-- The method itself is in order, and two of its parameters are of one name. -/
  | parameter {inFront : List Source.Property} {earlier later : Source.Property}
      {converted : String}
      (own : FitsScope dates scope.names ((before ++ [method]).map Method.asProperty))
      (clash : FirstCollision dates (method.parameters.map Parameter.asProperty) inFront earlier
        later converted) :
      Collides dates scope before method earlier.name later.name converted

/-- The first method that collides; the methods before it are without a fault. -/
structure FirstCollidingMethod (dates : DateMapping) (scope : Scope)
    (methods before : List Method) (method : Method) (first second converted : String) :
    Prop where
  position : before ++ [method] <+: methods
  fits : FitsMethods dates scope.names before
  collides : Collides dates scope before method first second converted

variable {dates : DateMapping}

/-! ## Parameters -/

/-- Parameters are bound when properties are, and refer to the same types. -/
theorem references_bindParameters (dates : DateMapping) (scope : Scope)
    (parameters : List Parameter) :
    (bindParameters dates scope parameters).map (·.references) =
      (bindProperties dates scope (parameters.map Parameter.asProperty)).map (·.references) := by
  induction parameters generalizing scope with
  | nil => rfl
  | cons parameter rest ih =>
      rw [List.map_cons, bindParameters, bindProperties, Parameter.type_asProperty,
        Parameter.name_asProperty]
      cases mapType dates parameter.type with
      | error error => rfl
      | ok type =>
          cases liftName (scope.convert parameter.name) with
          | error error => rfl
          | ok claimed =>
              obtain ⟨name, after⟩ := claimed
              calc
                _ = ((bindParameters dates after rest).map (·.references)).map
                    (type.references ++ ·) := by
                  change Except.map _ (bindParameters dates after rest >>= _) = _
                  cases bindParameters dates after rest <;> rfl
                _ = ((bindProperties dates after (rest.map Parameter.asProperty)).map
                    (·.references)).map (type.references ++ ·) := by rw [ih]
                _ = _ := by
                  change _ = Except.map _ (bindProperties dates after _ >>= _)
                  cases bindProperties dates after (rest.map Parameter.asProperty) <;> rfl

theorem bindParameters_ok_iff {scope : Scope} {parameters : List Parameter} :
    (∃ bound, bindParameters dates scope parameters = .ok bound) ↔
      FitsScope dates scope.names (parameters.map Parameter.asProperty) := by
  have same := references_bindParameters dates scope parameters
  rw [← bindProperties_ok_iff]
  constructor
  · rintro ⟨bound, found⟩
    rw [found] at same
    obtain ⟨properties, foundToo, -⟩ := Except.map_eq_ok_iff.mp same.symm
    exact ⟨properties, foundToo⟩
  · rintro ⟨properties, found⟩
    rw [found] at same
    obtain ⟨bound, foundToo, -⟩ := Except.map_eq_ok_iff.mp same
    exact ⟨bound, foundToo⟩

theorem firstCollision_of_bindParameters {parameters : List Parameter}
    {first second converted : String}
    (failed : bindParameters dates {} parameters =
      .error (.naming (.collision first second converted))) :
    ∃ inFront earlier later, FirstCollision dates (parameters.map Parameter.asProperty) inFront
      earlier later converted ∧ earlier.name = first ∧ later.name = second := by
  have same := references_bindParameters dates {} parameters
  rw [failed] at same
  exact firstCollision_of_bindProperties (Except.map_eq_error_iff.mp same.symm)

theorem declares_of_bindParameters {scope : Scope} {parameters : List Parameter}
    {bound : Mapped (List Target.Parameter)}
    (found : bindParameters dates scope parameters = .ok bound) :
    List.Forall₂ (DeclaresParameter dates) parameters bound.type := by
  induction parameters generalizing scope bound with
  | nil =>
      cases found
      exact .nil
  | cons parameter rest ih =>
      obtain ⟨type, mapped, found⟩ := Except.bind_eq_ok_iff.mp found
      obtain ⟨⟨name, after⟩, converted, found⟩ := Except.bind_eq_ok_iff.mp found
      obtain ⟨later, boundRest, done⟩ := Except.bind_eq_ok_iff.mp found
      cases done
      obtain ⟨spelled, -, -⟩ := Scope.convert_eq_ok (liftName_eq_ok_iff.mp converted)
      exact .cons ⟨spelled, ⟨type, mapped, rfl⟩, rfl⟩ (ih boundRest)

/-! ## Methods -/

theorem fitsMethods_cons_iff {taken : List String} {method : Method} {rest : List Method} :
    FitsMethods dates taken (method :: rest) ↔ IsMapped dates method.returnType ∧
      FitsScope dates [] (method.parameters.map Parameter.asProperty) ∧
      ∃ name, toMemberCase method.name = .ok name ∧ name ∉ taken ∧
        FitsMethods dates (name :: taken) rest := by
  constructor
  · rintro ⟨own, parameters⟩
    rw [List.map_cons, fitsScope_cons_iff] at own
    rw [List.forall_mem_cons] at parameters
    obtain ⟨mapped, name, converted, fresh, fits⟩ := own
    exact ⟨mapped, parameters.1, name, converted, fresh, fits, parameters.2⟩
  · rintro ⟨mapped, parameters, name, converted, fresh, fits, others⟩
    refine ⟨?_, List.forall_mem_cons.mpr ⟨parameters, others⟩⟩
    rw [List.map_cons, fitsScope_cons_iff]
    exact ⟨mapped, name, converted, fresh, fits⟩

theorem fitsMethods_nil (taken : List String) : FitsMethods dates taken [] :=
  ⟨⟨by simp, by simp, .nil, by simp⟩, by simp⟩

theorem bindMethods_ok_iff {scope : Scope} {methods : List Method} :
    (∃ bound, bindMethods dates scope methods = .ok bound) ↔
      FitsMethods dates scope.names methods := by
  induction methods generalizing scope with
  | nil => exact ⟨fun _ => fitsMethods_nil scope.names, fun _ => ⟨_, rfl⟩⟩
  | cons method rest ih =>
      rw [fitsMethods_cons_iff, bindMethods, Except.exists_bind_eq_ok_iff]
      constructor
      · rintro ⟨⟨name, after⟩, converted, found⟩
        obtain ⟨result, mapped, found⟩ := Except.exists_bind_eq_ok_iff.mp found
        obtain ⟨parameters, boundParameters, found⟩ := Except.exists_bind_eq_ok_iff.mp found
        obtain ⟨later, boundRest, -⟩ := Except.exists_bind_eq_ok_iff.mp found
        obtain ⟨spelled, fresh, taken⟩ := Scope.convert_eq_ok (liftName_eq_ok_iff.mp converted)
        exact ⟨⟨result, mapped⟩, bindParameters_ok_iff.mp ⟨parameters, boundParameters⟩,
          name, spelled, fresh, taken ▸ ih.mp ⟨later, boundRest⟩⟩
      · rintro ⟨⟨result, mapped⟩, parametersFit, name, spelled, fresh, fits⟩
        let after : Scope := ⟨(name, method.name) :: scope.claimed⟩
        have converted : scope.convert method.name = .ok (name, after) :=
          Scope.convert_of_not_mem spelled fresh
        have opened : ∃ parameters, bindParameters dates {} method.parameters = .ok parameters :=
          bindParameters_ok_iff.mpr parametersFit
        obtain ⟨parameters, boundParameters⟩ := opened
        have continued : ∃ later, bindMethods dates after rest = .ok later := ih.mpr fits
        obtain ⟨later, boundRest⟩ := continued
        refine ⟨(name, after), liftName_eq_ok_iff.mpr converted, ?_⟩
        refine Except.exists_bind_eq_ok_iff.mpr ⟨result, mapped, ?_⟩
        refine Except.exists_bind_eq_ok_iff.mpr ⟨parameters, boundParameters, ?_⟩
        exact Except.exists_bind_eq_ok_iff.mpr ⟨later, boundRest, _, rfl⟩

theorem declares_of_bindMethods {scope : Scope} {methods : List Method}
    {bound : Mapped (List Target.Method)} (found : bindMethods dates scope methods = .ok bound) :
    List.Forall₂ (DeclaresMethod dates) methods bound.type := by
  induction methods generalizing scope bound with
  | nil =>
      cases found
      exact .nil
  | cons method rest ih =>
      obtain ⟨⟨name, after⟩, converted, found⟩ := Except.bind_eq_ok_iff.mp found
      obtain ⟨result, mapped, found⟩ := Except.bind_eq_ok_iff.mp found
      obtain ⟨parameters, boundParameters, found⟩ := Except.bind_eq_ok_iff.mp found
      obtain ⟨later, boundRest, done⟩ := Except.bind_eq_ok_iff.mp found
      cases done
      obtain ⟨spelled, -, -⟩ := Scope.convert_eq_ok (liftName_eq_ok_iff.mp converted)
      exact .cons ⟨spelled, ⟨result, mapped, rfl⟩, rfl, declares_of_bindParameters boundParameters⟩
        (ih boundRest)

/-- A method that claims a name before others do is one more method that they collide with. -/
theorem Collides.cons {scope : Scope} {before : List Method} {claiming method : Method}
    {name first second converted : String} (mapped : IsMapped dates claiming.returnType)
    (spelled : toMemberCase claiming.name = .ok name) (fresh : name ∉ scope.names)
    (collides : Collides dates ⟨(name, claiming.name) :: scope.claimed⟩ before method first second
      converted) :
    Collides dates scope (claiming :: before) method first second converted := by
  cases collides with
  | reserved claimed same =>
      rw [List.lookup_cons] at claimed
      split at claimed
      · rename_i matching
        cases claimed
        obtain rfl := beq_iff_eq.mp matching
        exact .method List.mem_cons_self spelled same
      · exact .reserved claimed same
  | method member earlier same => exact .method (List.mem_cons_of_mem _ member) earlier same
  | parameter own clash =>
      refine .parameter ?_ clash
      rw [List.cons_append, List.map_cons, fitsScope_cons_iff]
      exact ⟨mapped, name, spelled, fresh, own⟩

theorem firstCollidingMethod_of_bindMethods {scope : Scope} {methods : List Method}
    {first second converted : String}
    (failed : bindMethods dates scope methods =
      .error (.naming (.collision first second converted))) :
    ∃ before method,
      FirstCollidingMethod dates scope methods before method first second converted := by
  induction methods generalizing scope with
  | nil => cases failed
  | cons method rest ih =>
      have start : [] ++ [method] <+: method :: rest := by simp
      rcases Except.bind_eq_error_iff.mp failed with clash | ⟨⟨name, after⟩, claimed, failed⟩
      · obtain ⟨rfl, spelled, taken⟩ := Scope.convert_eq_collision (liftName_eq_error_iff.mp clash)
        exact ⟨[], method, start, fitsMethods_nil scope.names, .reserved taken spelled⟩
      obtain ⟨spelled, fresh, -⟩ := Scope.convert_eq_ok (liftName_eq_ok_iff.mp claimed)
      cases (liftName_eq_ok_iff.mp claimed).symm.trans (Scope.convert_of_not_mem spelled fresh)
      rcases Except.bind_eq_error_iff.mp failed with unmapped | ⟨result, mapped, failed⟩
      · obtain ⟨kind, other⟩ := unsupported_of_mapType unmapped
        cases other
      rcases Except.bind_eq_error_iff.mp failed with clash | ⟨parameters, boundParameters, failed⟩
      · obtain ⟨inFront, earlier, later, firstClash, rfl, rfl⟩ :=
          firstCollision_of_bindParameters clash
        have own : FitsScope dates scope.names ([method].map Method.asProperty) :=
          fitsScope_cons_iff.mpr ⟨⟨result, mapped⟩, name, spelled, fresh, (fitsMethods_nil _).own⟩
        exact ⟨[], method, start, fitsMethods_nil scope.names, .parameter own firstClash⟩
      rcases Except.bind_eq_error_iff.mp failed with later | ⟨bound, -, done⟩
      · obtain ⟨before, colliding, position, fits, collides⟩ := ih later
        have opened : ∃ parameters, bindParameters dates {} method.parameters = .ok parameters :=
          ⟨parameters, boundParameters⟩
        refine ⟨method :: before, colliding, List.cons_prefix_cons.mpr ⟨rfl, position⟩, ?_,
          collides.cons ⟨result, mapped⟩ spelled fresh⟩
        exact fitsMethods_cons_iff.mpr ⟨⟨result, mapped⟩, bindParameters_ok_iff.mp opened, name,
          spelled, fresh, fits⟩
      · cases done

/-! ## Services -/

section

variable {context : Context} {model : Source.Service}

/-- What is added to the imports of a service is what it depends on. -/
theorem mem_references_of_service {scope : Scope} {methods : Mapped (List Target.Method)}
    (methodsBound : bindMethods dates scope model.methods = .ok methods)
    {reference : Source.TypeReference} :
    reference ∈ methods.references ++ model.imports ↔
      (Model.ofService model).DependsOn reference := by
  rw [List.mem_append, mem_references_of_bindMethods methodsBound, Model.DependsOn,
    Source.Model.refersTo_ofService_iff, Model.listed]

theorem bindService_ok_iff :
    (∃ declaration, bindService context model = .ok declaration) ↔
      IsWellFormedService context.dates model := by
  constructor
  · rintro ⟨declaration, bound⟩
    obtain ⟨declared, methods, imports, methodsBound, imported, -⟩ := bindService_eq_ok bound
    obtain ⟨valid, unreserved⟩ := Identifier.checkDeclared_eq_ok_iff.mp declared
    exact {
      valid
      unreserved
      methods := bindMethods_ok_iff.mp ⟨methods, methodsBound⟩
      importable := by
        intro reference depends foreign
        exact importAll_ok_iff.mp ⟨imports, imported⟩ reference
          ((mem_references_of_service methodsBound).mpr depends) (by simpa using foreign) }
  · intro formed
    have declared : Identifier.checkDeclared model.name = .ok () :=
      Identifier.checkDeclared_eq_ok_iff.mpr ⟨formed.valid, formed.unreserved⟩
    have fits : ∃ methods, bindMethods context.dates (.ofNames [routeProperty, transportProperty])
        model.methods = .ok methods :=
      bindMethods_ok_iff.mpr formed.methods
    obtain ⟨methods, methodsBound⟩ := fits
    have imported : ∃ imports, importAll context.layout .service [model.name]
        (methods.references ++ model.imports) (Target.ImportSet.extend {} transportImports) =
          .ok imports := by
      rw [importAll_ok_iff]
      intro reference member foreign
      exact formed.importable reference ((mem_references_of_service methodsBound).mp member)
        (by simpa using foreign)
    obtain ⟨imports, imported⟩ := imported
    have named : liftName (Identifier.checkDeclared model.name) = .ok () :=
      liftName_eq_ok_iff.mpr declared
    refine Except.exists_bind_eq_ok_iff.mpr ⟨(), named, ?_⟩
    refine Except.exists_bind_eq_ok_iff.mpr ⟨methods, methodsBound, ?_⟩
    exact Except.exists_bind_eq_ok_iff.mpr ⟨imports, imported, _, rfl⟩

theorem declaresService_of_bindService {declaration : Target.ServiceClass}
    (bound : bindService context model = .ok declaration) :
    DeclaresService context.dates model declaration := by
  obtain ⟨-, methods, imports, methodsBound, -, rfl⟩ := bindService_eq_ok bound
  exact ⟨rfl, rfl, rfl, rfl, declares_of_bindMethods methodsBound⟩

theorem firstCollidingMethod_of_bindService {first second converted : String}
    (failed : bindService context model =
      .error (.naming (.collision first second converted))) :
    ∃ before method, FirstCollidingMethod context.dates
      (.ofNames [routeProperty, transportProperty]) model.methods before method first second
      converted := by
  rcases Except.bind_eq_error_iff.mp failed with undeclared | ⟨⟨⟩, -, failed⟩
  · exact absurd (liftName_eq_error_iff.mp undeclared) (checkDeclared_ne_collision _ _ _ _)
  rcases Except.bind_eq_error_iff.mp failed with clash | ⟨methods, -, failed⟩
  · exact firstCollidingMethod_of_bindMethods clash
  rcases Except.bind_eq_error_iff.mp failed with unresolved | ⟨imports, -, done⟩
  · obtain ⟨name, other⟩ := invalid_of_importAll unresolved
    cases other
  · cases done

end

/-- A service is bound exactly if it is well formed, and declared part by part.  When a collision is
reported, the methods before it are without a fault, and it is one of the next method's name or of
two of its parameters. -/
theorem bindService_sound_and_complete (context : Context) (model : Source.Service) :
    ((∃ declaration, bindService context model = .ok declaration) ↔
      IsWellFormedService context.dates model) ∧
    (∀ declaration, bindService context model = .ok declaration →
      DeclaresService context.dates model declaration) ∧
    ∀ first second converted,
      bindService context model = .error (.naming (.collision first second converted)) →
        ∃ before method, FirstCollidingMethod context.dates
          (.ofNames [routeProperty, transportProperty]) model.methods before method first second
          converted :=
  ⟨bindService_ok_iff, fun _ => declaresService_of_bindService,
    fun _ _ _ => firstCollidingMethod_of_bindService⟩

theorem bindService_sound_and_complete_orders :
    let context : Context := { layout := { root := ⟨"out"⟩ } }
    let orders : Source.Service := {
      name := "Orders"
      route := "api/orders"
      methods := [
        { name := "Find", verb := .get, returnType := .nullable (.reference "Order" .model [])
          parameters := [⟨"Id", .primitive "Guid"⟩] },
        { name := "Id", verb := .put, returnType := .primitive "void"
          parameters := [⟨"@id", .primitive "int"⟩, ⟨"Find", .reference "Orders" .model []⟩] }] }
    let clashing : Source.Service := {
      name := "Orders"
      route := "api/orders"
      methods := [
        { name := "Find", verb := .get, returnType := .primitive "void"
          parameters := [⟨"ID", .primitive "int"⟩, ⟨"@Id", .primitive "int"⟩] }] }
    (∃ declaration, bindService context orders = .ok declaration ∧
      declaration.methods.map (·.name) = ["find", "id"] ∧
      IsWellFormedService .date orders ∧ DeclaresService .date orders declaration) ∧
    ∃ before method, FirstCollidingMethod .date (.ofNames [routeProperty, transportProperty])
      clashing.methods before method "ID" "@Id" "id" := by
  intro context orders clashing
  have evaluated : (bindService context orders).map (·.methods.map (·.name)) =
      .ok ["find", "id"] := by
    decide +kernel
  have refused : (bindService context clashing).map (·.name) =
      .error (.naming (.collision "ID" "@Id" "id")) := by
    decide +kernel
  obtain ⟨declaration, bound, names⟩ := Except.map_eq_ok_iff.mp evaluated
  obtain ⟨accepted, declared, -⟩ := bindService_sound_and_complete context orders
  have collision := (bindService_sound_and_complete context clashing).2.2
  exact ⟨⟨declaration, bound, names, accepted.mp ⟨declaration, bound⟩, declared declaration bound⟩,
    collision _ _ _ (Except.map_eq_error_iff.mp refused)⟩

end Binding

end ApiBindings
