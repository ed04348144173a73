import ApiBindings.Proofs.Binding.Declared
import ApiBindings.Proofs.Target.Literals
import ApiBindings.Target.Printer

/-!
# Routes of services

The route of a service is text of its own: it is bound as it is, and printed as the literal that one
property starts with.  Whatever it holds, it stays inside of this literal, so that another route
makes another literal in an otherwise equal file.
-/

namespace ApiBindings

namespace Target

/-- The line of a property with an initial value, around this value. -/
theorem exists_propertyText_eq (property : Property) :
    ∃ before after, ∀ value,
      ({ property with initialValue := some value }).text =
        before ++ Literal.quote value ++ after := by
  let start := "  " ++ visibility property.isPrivate ++ property.name
  cases property.type with
  | none =>
      refine ⟨start ++ " = ", ";\n", ?_⟩
      intro value
      simp only [start, Property.text, String.append_assoc, String.empty_append]
  | some type =>
      refine ⟨start ++ ": " ++ type.text ++ " = ", ";\n", ?_⟩
      intro value
      simp only [start, Property.text, String.append_assoc]

/-- The file of a service has one place for the initial value of its first property. -/
theorem exists_serviceText_eq (declaration : ServiceClass) (property : Property)
    (others : List Property) :
    ∃ before after, ∀ value,
      ({ declaration with
        properties := { property with initialValue := some value } :: others }).text =
          before ++ Literal.quote value ++ after := by
  obtain ⟨before, after, line⟩ := exists_propertyText_eq property
  let rest : List ServiceMember := ({ declaration with properties := others }).members
  refine ⟨header declaration.imports [promiseModule] declaration.decorators ++ "export class " ++
    declaration.name ++ " \x7b\n" ++ before,
    after ++ concat (rest.map ServiceMember.text) ++ "\x7d\n", ?_⟩
  intro value
  have members : ({ declaration with
      properties := { property with initialValue := some value } :: others }).members =
        .property { property with initialValue := some value } :: rest := rfl
  simp only [ServiceClass.text, members, List.map_cons, concat, String.join_cons,
    ServiceMember.text, line, String.append_assoc]

end Target

namespace Binding

open Target

/-- Two files that are alike but for one literal, which is of another text in each. -/
structure DifferInLiteral (first second route other : String) : Prop where
  apart : ∃ before after : String,
    first = before ++ Literal.quote route ++ after ∧
    second = before ++ Literal.quote other ++ after ∧
    Literal.read? (Literal.quote route ++ after).toList = some (route, after.toList) ∧
    Literal.read? (Literal.quote other ++ after).toList = some (other, after.toList)
  lines : Literal.lineEnds first.toList = Literal.lineEnds second.toList
  /-- It does not matter which characters are taken to end a line. -/
  breaks : ∀ c, Literal.breaksLine c = true → first.toList.count c = second.toList.count c

theorem differInLiteral (before after route other : String) :
    DifferInLiteral (before ++ Literal.quote route ++ after)
      (before ++ Literal.quote other ++ after) route other where
  apart := by
    refine ⟨before, after, rfl, rfl, ?_, ?_⟩
    all_goals rw [String.toList_append]
    all_goals exact Literal.read?_quote _ _
  lines := by rw [Literal.lineEnds_around, Literal.lineEnds_around]
  breaks := by
    intro c breaks
    rw [Literal.count_around before after route breaks,
      Literal.count_around before after other breaks]

/-- The property that is declared for a route. -/
def propertyOf (route : String) : Target.Property :=
  { name := routeProperty, isPrivate := true, initialValue := some route }

/-- The route has no part in whether a service is accepted, nor in anything of its declaration but
the one property. -/
theorem bindService_withRoute (context : Context) (model : Source.Service) (route : String) :
    bindService context { model with route } =
      ({ · with properties := [propertyOf route] }) <$> bindService context model := by
  simp only [bindService, map_bind, map_pure, propertyOf]

theorem properties_of_bindService {context : Context} {model : Source.Service}
    {declaration : ServiceClass} (bound : bindService context model = .ok declaration) :
    declaration = { declaration with properties := [propertyOf model.route] } := by
  obtain ⟨-, methods, imports, -, -, rfl⟩ := bindService_eq_ok bound
  rfl

theorem differInLiteral_of_bindService {context : Context} {model : Source.Service} {route : String}
    {declaration other : ServiceClass} (bound : bindService context model = .ok declaration)
    (boundOther : bindService context { model with route } = .ok other) :
    DifferInLiteral declaration.text other.text model.route route := by
  rw [bindService_withRoute, bound] at boundOther
  obtain rfl := Except.ok.inj boundOther
  obtain ⟨before, after, text⟩ := exists_serviceText_eq declaration (propertyOf model.route) []
  have first : declaration.text = before ++ Literal.quote model.route ++ after := by
    rw [properties_of_bindService bound]
    exact text model.route
  have second : ({ declaration with properties := [propertyOf route] }).text =
      before ++ Literal.quote route ++ after := text route
  have differ := differInLiteral before after model.route route
  rwa [← first, ← second] at differ

/-- Every text stays in its literal, and so a service that is given another route is printed with
another literal and no other difference. -/
theorem literals_contain_texts :
    (∀ text, Literal.Contained text) ∧
    ∀ (context : Context) (model : Source.Service) (route : String)
      (declaration other : Declaration),
      bind context (.ofService model) = .ok declaration →
      bind context (.ofService { model with route }) = .ok other →
      DifferInLiteral declaration.text other.text model.route route := by
  refine ⟨Literal.contained, ?_⟩
  intro context model route declaration other bound boundOther
  cases binds_of_bind bound with
  | ofService own =>
      cases binds_of_bind boundOther with
      | ofService ownOther => exact differInLiteral_of_bindService own ownOther

/-- A route that closes its literal and goes on with a program of its own is still only a route. -/
theorem literals_contain_texts_closing_quote :
    let context : Context := { layout := { root := ⟨"out"⟩ } }
    let model : Source.Service := { name := "Orders", route := "api/orders" }
    let route := "\\\"; alert(1); //\n\u2028\\"
    ∃ declaration other, bind context (.ofService model) = .ok declaration ∧
      bind context (.ofService { model with route }) = .ok other ∧
      DifferInLiteral declaration.text other.text "api/orders" route := by
  intro context model route
  have accepted : (bind context (.ofService model)).isOk = true := by decide +kernel
  have acceptedToo : (bind context (.ofService { model with route })).isOk = true := by
    decide +kernel
  obtain ⟨declaration, bound⟩ := Except.isOk_iff.mp accepted
  obtain ⟨other, boundOther⟩ := Except.isOk_iff.mp acceptedToo
  exact ⟨declaration, other, bound, boundOther,
    literals_contain_texts.2 context model route declaration other bound boundOther⟩

end Binding

end ApiBindings
