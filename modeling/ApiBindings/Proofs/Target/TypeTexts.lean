import ApiBindings.Target.Printer

/-!
# Declarations without their types

The text of a declaration is made of the texts of its types.  The printer looks at a type itself in
one place only, where it tells whether a method has a result.  A declaration whose types are
replaced by names with the same texts is therefore printed the same, as long as a type that reads
like `void` is `void`.
-/

namespace ApiBindings.Target

/-- A type that is only known by its text. -/
def TypeExpr.ofText (text : String) : TypeExpr :=
  if text = Primitive.void.text then .primitive .void else .reference text

/-- A type whose text tells whether there is a result. -/
def TypeExpr.TellsVoid (type : TypeExpr) : Prop :=
  type.text = Primitive.void.text → type = .primitive .void

/-- A property whose type is known by its text. -/
def Property.asSent (property : Property) : Property :=
  { property with type := property.type.map fun type => .ofText type.text }

/-- A parameter whose type is known by its text. -/
def Parameter.asSent (parameter : Parameter) : Parameter :=
  { parameter with type := .ofText parameter.type.text }

/-- A method whose types are known by their texts. -/
def Method.asSent (method : Method) : Method :=
  { method with
    returnType := .ofText method.returnType.text
    parameters := method.parameters.map Parameter.asSent }

/-- A data class whose types are known by their texts. -/
def DataClass.asSent (declaration : DataClass) : DataClass :=
  { declaration with
    baseClass := declaration.baseClass.map fun type => .ofText type.text
    properties := declaration.properties.map Property.asSent }

/-- A service whose types are known by their texts. -/
def ServiceClass.asSent (declaration : ServiceClass) : ServiceClass :=
  { declaration with
    properties := declaration.properties.map Property.asSent
    constructorParameters := declaration.constructorParameters.map Parameter.asSent
    methods := declaration.methods.map Method.asSent }

/-- A declaration whose types are known by their texts. -/
def Declaration.asSent : Declaration → Declaration
  | .dataClass declaration => .dataClass declaration.asSent
  | .service declaration => .service declaration.asSent
  | .enum declaration => .enum declaration

/-- The methods of a declaration. -/
def Declaration.methods : Declaration → List Method
  | .dataClass _ => []
  | .service declaration => declaration.methods
  | .enum _ => []

@[simp] theorem TypeExpr.text_ofText (text : String) : (ofText text).text = text := by
  unfold ofText
  split
  · rename_i void
    rw [void]
    rfl
  · simp [TypeExpr.text, chars]

theorem Property.text_asSent (property : Property) : property.asSent.text = property.text := by
  cases typed : property.type <;> simp [Property.text, asSent, typed]

theorem Parameter.text_asSent (parameter : Parameter) : parameter.asSent.text = parameter.text := by
  simp [Parameter.text, asSent]

theorem parameterList_asSent (parameters : List Parameter) :
    parameterList (parameters.map Parameter.asSent) = parameterList parameters := by
  have texts : parameters.map (Parameter.text ∘ Parameter.asSent) = parameters.map Parameter.text :=
    List.map_congr_left fun parameter _ => Parameter.text_asSent parameter
  rw [parameterList, List.map_map, texts, parameterList]

/-- What a method does with the response is decided by the text of its result. -/
theorem Method.responseHandler_asSent {method : Method} (tells : method.returnType.TellsVoid) :
    method.asSent.responseHandler = method.responseHandler := by
  by_cases void : method.returnType.text = Primitive.void.text
  · rw [responseHandler, responseHandler, asSent, tells void]
    rfl
  · have sent : method.asSent.returnType = .reference method.returnType.text := if_neg void
    have other : method.returnType ≠ .primitive .void := by
      intro same
      exact void (by rw [same]; rfl)
    rw [responseHandler, sent, responseHandler]
    split
    · contradiction
    · simp [TypeExpr.text, TypeExpr.chars]

theorem Method.bodyParameter?_asSent (method : Method) (verb : Http.Verb) :
    method.asSent.bodyParameter? verb = (method.bodyParameter? verb).map Parameter.asSent := by
  unfold bodyParameter?
  split
  · exact List.head?_map
  · rfl

theorem Method.queryParameters_asSent (method : Method) (verb : Http.Verb) :
    method.asSent.queryParameters verb = (method.queryParameters verb).map Parameter.asSent := by
  unfold queryParameters
  split
  · exact List.map_drop.symm
  · rfl

/-- A request is made of the names of its parameters. -/
theorem Method.requestText_asSent {method : Method} (tells : method.returnType.TellsVoid)
    (verb : Http.Verb) : method.asSent.requestText verb = method.requestText verb := by
  have names : ((method.queryParameters verb).map Parameter.asSent).map (·.name) =
      (method.queryParameters verb).map (·.name) := by
    rw [List.map_map]
    rfl
  have options : method.asSent.requestOptions verb = method.requestOptions verb := by
    rw [requestOptions, bodyParameter?_asSent, queryParameters_asSent, names, Option.isSome_map,
      List.isEmpty_map, requestOptions]
  have arguments : method.asSent.callArguments verb = method.callArguments verb := by
    rw [callArguments, options, bodyParameter?_asSent, callArguments]
    cases method.bodyParameter? verb <;> rfl
  unfold requestText
  rw [arguments, responseHandler_asSent tells]

theorem Method.text_asSent {method : Method} (tells : method.returnType.TellsVoid) :
    method.asSent.text = method.text := by
  have returns : method.asSent.returnType.text = method.returnType.text := TypeExpr.text_ofText _
  have parameters : parameterList method.asSent.parameters = parameterList method.parameters :=
    parameterList_asSent method.parameters
  have verb : method.asSent.verb = method.verb := rfl
  have name : method.asSent.name = method.name := rfl
  unfold Method.text
  rw [returns, parameters, verb, name]
  cases method.verb with
  | none => rfl
  | some verb => simp only [requestText_asSent tells verb]

theorem texts_map_asSent {α : Type} {items : List α} {text : α → String} {sent : α → α}
    (same : ∀ item ∈ items, text (sent item) = text item) :
    (items.map sent).map text = items.map text := by
  rw [List.map_map]
  exact List.map_congr_left same

theorem ServiceClass.texts_members (declaration : ServiceClass) :
    declaration.members.map ServiceMember.text =
      declaration.properties.map Property.text ++
        ["\n" ++ constructorText declaration.constructorParameters] ++
        (if declaration.sendsBodies then [jsonHeadersText] else []) ++
        declaration.methods.map fun method => "\n" ++ method.text := by
  rw [members, List.map_append, List.map_append, List.map_append, List.map_map, List.map_map]
  cases declaration.sendsBodies <;> rfl

theorem DataClass.text_asSent (declaration : DataClass) :
    declaration.asSent.text = declaration.text := by
  have properties : (declaration.properties.map Property.asSent).map Property.text =
      declaration.properties.map Property.text :=
    texts_map_asSent fun property _ => Property.text_asSent property
  cases based : declaration.baseClass <;> simp [text, asSent, based, properties]

theorem ServiceClass.text_asSent {declaration : ServiceClass}
    (tells : ∀ method ∈ declaration.methods, method.returnType.TellsVoid) :
    declaration.asSent.text = declaration.text := by
  have properties : (declaration.properties.map Property.asSent).map Property.text =
      declaration.properties.map Property.text :=
    texts_map_asSent fun property _ => Property.text_asSent property
  have methods : ((declaration.methods.map Method.asSent).map fun method => "\n" ++ method.text) =
      declaration.methods.map fun method => "\n" ++ method.text :=
    texts_map_asSent fun method member => congrArg _ (Method.text_asSent (tells method member))
  have constructor : constructorText declaration.asSent.constructorParameters =
      constructorText declaration.constructorParameters := by
    unfold constructorText
    rw [asSent, parameterList_asSent]
  have bodies : declaration.asSent.sendsBodies = declaration.sendsBodies := by
    rw [sendsBodies, asSent, List.any_map]
    rfl
  have members : declaration.asSent.members.map ServiceMember.text =
      declaration.members.map ServiceMember.text := by
    rw [texts_members, texts_members, constructor, bodies, asSent, properties, methods]
  unfold ServiceClass.text
  rw [members]
  rfl

/-- A declaration is printed from what is sent of it. -/
theorem Declaration.text_asSent {declaration : Declaration}
    (tells : ∀ method ∈ declaration.methods, method.returnType.TellsVoid) :
    declaration.asSent.text = declaration.text := by
  cases declaration with
  | dataClass declaration => exact declaration.text_asSent
  | service declaration => exact ServiceClass.text_asSent tells
  | enum declaration => rfl

end ApiBindings.Target
