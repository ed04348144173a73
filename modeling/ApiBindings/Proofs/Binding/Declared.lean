import ApiBindings.Plan
import ApiBindings.Proofs.Fallible

/-!
# What binding a model takes

A model is bound when its name can be declared, its types have counterparts, its members have names
and its references can be imported.  The declaration then has the name of the model and the category
of its kind.
-/

namespace ApiBindings.Binding

theorem liftName_eq_ok_iff {α : Type} {named : Except NameError α} {value : α} :
    liftName named = .ok value ↔ named = .ok value := by
  cases named <;> simp [liftName]

theorem isValid_of_checkDeclared {name : String} {checked : Unit}
    (declared : Identifier.checkDeclared name = .ok checked) : Identifier.isValid name = true := by
  unfold Identifier.checkDeclared at declared
  split at declared
  · cases declared
  · cases valid : Identifier.isValid name with
    | true => rfl
    | false => simp [valid] at declared

/-! ## Inversion -/

theorem bindClass_eq_ok {context : Context} {model : Source.Class} {declaration : Target.DataClass}
    (bound : bindClass context model = .ok declaration) :
    Identifier.checkDeclared model.name = .ok () ∧ ∃ base properties imports,
      bindBase context.dates model.baseClass = .ok base ∧
      bindProperties context.dates {} model.properties = .ok properties ∧
      importAll context.layout .model (model.name :: model.typeParameter.toList)
        (base.references ++ properties.references ++ model.imports) {} = .ok imports ∧
      declaration = {
        name := model.name
        baseClass := base.type
        typeParameters := model.typeParameter.toList
        imports := imports.entries
        properties := properties.type } := by
  obtain ⟨⟨⟩, declared, bound⟩ := Except.bind_eq_ok_iff.mp bound
  obtain ⟨base, baseBound, bound⟩ := Except.bind_eq_ok_iff.mp bound
  obtain ⟨properties, propertiesBound, bound⟩ := Except.bind_eq_ok_iff.mp bound
  obtain ⟨imports, imported, bound⟩ := Except.bind_eq_ok_iff.mp bound
  exact ⟨liftName_eq_ok_iff.mp declared, base, properties, imports, baseBound, propertiesBound,
    imported, (Except.pure_eq_ok_iff.mp bound).symm⟩

theorem bindService_eq_ok {context : Context} {model : Source.Service}
    {declaration : Target.ServiceClass} (bound : bindService context model = .ok declaration) :
    Identifier.checkDeclared model.name = .ok () ∧ ∃ methods imports,
      bindMethods context.dates (.ofNames [routeProperty, transportProperty]) model.methods =
        .ok methods ∧
      importAll context.layout .service [model.name] (methods.references ++ model.imports)
        (Target.ImportSet.extend {} transportImports) = .ok imports ∧
      declaration = {
        name := model.name
        decorators := [serviceDecorator]
        imports := imports.entries
        properties :=
          [{ name := routeProperty, isPrivate := true, initialValue := some model.route }]
        constructorParameters :=
          [{ name := transportProperty, type := .reference transportType, isPrivate := true }]
        methods := methods.type } := by
  obtain ⟨⟨⟩, declared, bound⟩ := Except.bind_eq_ok_iff.mp bound
  obtain ⟨methods, methodsBound, bound⟩ := Except.bind_eq_ok_iff.mp bound
  obtain ⟨imports, imported, bound⟩ := Except.bind_eq_ok_iff.mp bound
  exact ⟨liftName_eq_ok_iff.mp declared, methods, imports, methodsBound, imported,
    (Except.pure_eq_ok_iff.mp bound).symm⟩

theorem bindEnum_eq_ok {model : Source.Enum} {declaration : Target.Enum}
    (bound : bindEnum model = .ok declaration) :
    Identifier.checkDeclared model.name = .ok () ∧ declaration.name = model.name := by
  obtain ⟨⟨⟩, declared, bound⟩ := Except.bind_eq_ok_iff.mp bound
  obtain ⟨members, -, bound⟩ := Except.bind_eq_ok_iff.mp bound
  cases bound
  exact ⟨liftName_eq_ok_iff.mp declared, rfl⟩

/-! ## Declarations -/

/-- A model and what it is declared as, by the kind of the model. -/
inductive Binds (context : Context) : Source.Model → Target.Declaration → Prop where
  | ofClass {model : Source.Class} {declaration : Target.DataClass}
      (own : bindClass context model = .ok declaration) :
      Binds context (.ofClass model) (.dataClass declaration)
  | ofEnum {model : Source.Enum} {declaration : Target.Enum}
      (own : bindEnum model = .ok declaration) :
      Binds context (.ofEnum model) (.enum declaration)
  | ofService {model : Source.Service} {declaration : Target.ServiceClass}
      (own : bindService context model = .ok declaration) :
      Binds context (.ofService model) (.service declaration)

theorem binds_of_bind {context : Context} {model : Source.Model} {declaration : Target.Declaration}
    (bound : bind context model = .ok declaration) : Binds context model declaration := by
  cases model with
  | ofClass model =>
      obtain ⟨dataClass, own, bound⟩ := Except.bind_eq_ok_iff.mp bound
      cases bound
      exact .ofClass own
  | ofEnum model =>
      obtain ⟨enumeration, own, bound⟩ := Except.bind_eq_ok_iff.mp bound
      cases bound
      exact .ofEnum own
  | ofService model =>
      obtain ⟨service, own, bound⟩ := Except.bind_eq_ok_iff.mp bound
      cases bound
      exact .ofService own

/-- A model keeps its name, which is an identifier, and is declared under its own category. -/
theorem declared_of_bind {context : Context} {model : Source.Model}
    {declaration : Target.Declaration} (bound : bind context model = .ok declaration) :
    declaration.name = model.name ∧ Identifier.isValid model.name = true ∧
      declaration.category = (ModelId.ofModel model).category := by
  cases binds_of_bind bound with
  | ofClass own =>
      obtain ⟨declared, -, -, -, -, -, -, rfl⟩ := bindClass_eq_ok own
      exact ⟨rfl, isValid_of_checkDeclared declared, rfl⟩
  | ofEnum own =>
      obtain ⟨declared, name⟩ := bindEnum_eq_ok own
      exact ⟨name, isValid_of_checkDeclared declared, rfl⟩
  | ofService own =>
      obtain ⟨declared, -, -, -, -, rfl⟩ := bindService_eq_ok own
      exact ⟨rfl, isValid_of_checkDeclared declared, rfl⟩

end ApiBindings.Binding
