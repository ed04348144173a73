import ApiBindings.Proofs.Binding.NormalTypes
import ApiBindings.Proofs.Binding.WellFormedServices
import ApiBindings.Proofs.Json.Meaning
import ApiBindings.Proofs.Plan.Announcement
import ApiBindings.Proofs.Source.Document
import ApiBindings.Proofs.Target.TypeTexts

/-!
# What the wire carries

A rendering service sees no types but their texts.  That is enough to print a declaration: the
printer looks at a type itself only to tell whether a method has a result, and the text of a mapped
type tells that too, as long as nothing in its source goes by the name of `void`.
-/

namespace ApiBindings

open Json

namespace Request

/-! ## Reading what is sent -/

/-- The import in a value. -/
def readImport? (value : Value) : Option Target.Import := do
  let names ← value.read? "names" (Value.list? Value.text?)
  let path ← value.read? "path" Value.text?
  return { names, path }

/-- The property in a value. -/
def readProperty? (value : Value) : Option Target.Property := do
  let name ← value.read? "name" Value.text?
  let type ← value.read? "type" (Value.optional? Value.text?)
  let isPrivate ← value.read? "isPrivate" Value.bool?
  let initialValue ← value.read? "initialValue" (Value.optional? Value.text?)
  return { name, type := type.map .ofText, isPrivate, initialValue }

/-- The parameter in a value. -/
def readParameter? (value : Value) : Option Target.Parameter := do
  let name ← value.read? "name" Value.text?
  let type ← value.read? "type" Value.text?
  let isPrivate ← value.read? "isPrivate" Value.bool?
  return { name, type := .ofText type, isPrivate }

/-- The method in a value. -/
def readMethod? (value : Value) : Option Target.Method := do
  let name ← value.read? "name" Value.text?
  let returnType ← value.read? "returnType" Value.text?
  let parameters ← value.read? "parameters" (Value.list? readParameter?)
  let verb ← value.read? "httpMethod" (Value.optional? Value.text?)
  return { name, returnType := .ofText returnType, parameters, verb := verb.bind Http.Verb.ofText? }

/-- The parameters in the value of a constructor. -/
def readConstructor? (value : Value) : Option (List Target.Parameter) :=
  value.read? "parameters" (Value.list? readParameter?)

/-- The data class in a value. -/
def readDataClass? (value : Value) : Option Target.DataClass := do
  let name ← value.read? "name" Value.text?
  let baseClass ← value.read? "baseClass" (Value.optional? Value.text?)
  let decorators ← value.read? "decorators" (Value.list? Value.text?)
  let typeParameters ← value.read? "typeParameters" (Value.list? Value.text?)
  let imports ← value.read? "imports" (Value.list? readImport?)
  let properties ← value.read? "properties" (Value.list? readProperty?)
  return {
    name, baseClass := baseClass.map .ofText, decorators, typeParameters, imports, properties }

/-- The service in a value, which has the parameters of its constructor. -/
def readService? (constructorParameters : List Target.Parameter) (value : Value) :
    Option Target.ServiceClass := do
  let name ← value.read? "name" Value.text?
  let decorators ← value.read? "decorators" (Value.list? Value.text?)
  let imports ← value.read? "imports" (Value.list? readImport?)
  let properties ← value.read? "properties" (Value.list? readProperty?)
  let methods ← value.read? "methods" (Value.list? readMethod?)
  return { name, decorators, imports, properties, constructorParameters, methods }

/-- The member of an enumeration in a value. -/
def readEnumMember? (value : Value) : Option Target.EnumMember := do
  let name ← value.read? "name" Value.text?
  let content ← value.read? "value" (Value.optional? Value.text?)
  return { name, value := content }

/-- The enumeration in a value. -/
def readEnum? (value : Value) : Option Target.Enum := do
  let name ← value.read? "name" Value.text?
  let members ← value.read? "members" (Value.list? readEnumMember?)
  return { name, members }

/-- The declaration in a value. Only an enumeration has members, and only a service has a
constructor. -/
def readDeclaration? (value : Value) : Option Target.Declaration :=
  match value.field? "members" with
  | some _ => (readEnum? value).map .enum
  | none => do
      match ← value.read? "constructorDef" (Value.optional? readConstructor?) with
      | none => return .dataClass (← readDataClass? value)
      | some parameters => return .service (← readService? parameters value)

/-! ## Documents -/

theorem written_texts (texts : List String) : Written (textsToJson texts) :=
  .map fun text _ => .ofText text

theorem written_import (statement : Target.Import) : Written (importToJson statement) :=
  .ofMembers (by simp [Written.ofText, written_texts])

theorem written_property (property : Target.Property) : Written (propertyToJson property) :=
  .ofMembers (by simp [Written.ofText, Written.ofText?, Written.bool])

theorem written_parameter (parameter : Target.Parameter) : Written (parameterToJson parameter) :=
  .ofMembers (by simp [Written.ofText, Written.bool])

theorem written_method (method : Target.Method) : Written (methodToJson method) :=
  .ofMembers (by simp [Written.ofText, Written.ofText?, Written.bool, Written.map,
    written_parameter])

theorem written_enumMember (member : Target.EnumMember) : Written (enumMemberToJson member) :=
  .ofMembers (by simp [Written.ofText, Written.ofText?])

theorem written_dataClass (declaration : Target.DataClass) :
    Written (dataClassToJson declaration) :=
  .ofMembers (by simp [Written.ofText, Written.ofText?, Written.null, Written.map, written_texts,
    written_import, written_property])

theorem written_service (declaration : Target.ServiceClass) :
    Written (serviceToJson declaration) := by
  have construction : Written (ofMembers
      [("parameters", .array (declaration.constructorParameters.map parameterToJson))]) :=
    .ofMembers (by simp [Written.map, written_parameter])
  have parameters : Written (.array []) := .array (by simp)
  exact .ofMembers (by simp [Written.ofText, Written.null, Written.map, written_texts,
    written_import, written_property, written_method, construction, parameters])

theorem written_enum (declaration : Target.Enum) : Written (enumToJson declaration) :=
  .ofMembers (by simp [Written.ofText, Written.map, written_enumMember])

theorem written_declaration (declaration : Target.Declaration) :
    Written (declarationToJson declaration) := by
  cases declaration with
  | dataClass declaration => exact written_dataClass declaration
  | service declaration => exact written_service declaration
  | enum declaration => exact written_enum declaration

/-- A request on the wire is a written document. -/
theorem written_toJson (request : Request) : Written request.toJson :=
  .ofMembers (by simp [Written.ofText, written_declaration])

/-! ## What the documents carry -/

theorem carries_texts (texts : List String) :
    Carries (Value.list? Value.text?) (textsToJson texts) texts := by
  have carries : Carries _ (textsToJson texts) (texts.map fun text => text) :=
    carries_list fun text _ => carries_text text
  rwa [List.map_id'] at carries

theorem carries_import (statement : Target.Import) :
    Carries readImport? (importToJson statement) statement := by
  refine carries_ofMembers (written_import statement) (by simp) ?_
  intro value holds
  have names : value.read? "names" _ = some statement.names :=
    holds.read? (by simp) (carries_texts statement.names)
  have path : value.read? "path" _ = some statement.path :=
    holds.read? (by simp) (carries_text statement.path)
  rw [readImport?, names, path]
  rfl

theorem carries_property (property : Target.Property) :
    Carries readProperty? (propertyToJson property) property.asSent := by
  refine carries_ofMembers (written_property property) (by simp) ?_
  intro value holds
  have name : value.read? "name" _ = some property.name :=
    holds.read? (by simp) (carries_text property.name)
  have type : value.read? "type" _ = some (property.type.map Target.TypeExpr.text) :=
    holds.read? (by simp) (carries_optionalText _)
  have isPrivate : value.read? "isPrivate" _ = some property.isPrivate :=
    holds.read? (by simp) (carries_bool property.isPrivate)
  have initialValue : value.read? "initialValue" _ = some property.initialValue :=
    holds.read? (by simp) (carries_optionalText property.initialValue)
  rw [readProperty?, name, type, isPrivate, initialValue]
  simp [Target.Property.asSent, Function.comp_def]

theorem carries_parameter (parameter : Target.Parameter) :
    Carries readParameter? (parameterToJson parameter) parameter.asSent := by
  refine carries_ofMembers (written_parameter parameter) (by simp) ?_
  intro value holds
  have name : value.read? "name" _ = some parameter.name :=
    holds.read? (by simp) (carries_text parameter.name)
  have type : value.read? "type" _ = some parameter.type.text :=
    holds.read? (by simp) (carries_text parameter.type.text)
  have isPrivate : value.read? "isPrivate" _ = some parameter.isPrivate :=
    holds.read? (by simp) (carries_bool parameter.isPrivate)
  rw [readParameter?, name, type, isPrivate]
  rfl

theorem carries_method (method : Target.Method) :
    Carries readMethod? (methodToJson method) method.asSent := by
  refine carries_ofMembers (written_method method) (by simp) ?_
  intro value holds
  have name : value.read? "name" _ = some method.name :=
    holds.read? (by simp) (carries_text method.name)
  have returnType : value.read? "returnType" _ = some method.returnType.text :=
    holds.read? (by simp) (carries_text method.returnType.text)
  have parameters : value.read? "parameters" _ =
      some (method.parameters.map Target.Parameter.asSent) :=
    holds.read? (by simp) (carries_list fun parameter _ => carries_parameter parameter)
  have verb : value.read? "httpMethod" _ = some (method.verb.map Http.Verb.text) :=
    holds.read? (by simp) (carries_optionalText _)
  have known : (method.verb.map Http.Verb.text).bind Http.Verb.ofText? = method.verb := by
    cases method.verb with
    | none => rfl
    | some verb => exact Http.Verb.ofText?_text verb
  rw [readMethod?, name, returnType, parameters, verb]
  simp [known, Target.Method.asSent]

theorem carries_enumMember (member : Target.EnumMember) :
    Carries readEnumMember? (enumMemberToJson member) member := by
  refine carries_ofMembers (written_enumMember member) (by simp) ?_
  intro value holds
  have name : value.read? "name" _ = some member.name :=
    holds.read? (by simp) (carries_text member.name)
  have content : value.read? "value" _ = some member.value :=
    holds.read? (by simp) (carries_optionalText member.value)
  rw [readEnumMember?, name, content]
  rfl

theorem carries_dataClass (declaration : Target.DataClass) :
    Carries readDeclaration? (dataClassToJson declaration) (.dataClass declaration.asSent) := by
  refine carries_ofMembers (written_dataClass declaration) (by simp) ?_
  intro value holds
  have noMembers : value.field? "members" = none := holds.absent "members" (by simp)
  have noConstructor : value.read? "constructorDef" (Value.optional? readConstructor?) =
      some none :=
    holds.read? (by simp) (carries_null readConstructor?)
  have name : value.read? "name" _ = some declaration.name :=
    holds.read? (by simp) (carries_text declaration.name)
  have baseClass : value.read? "baseClass" _ =
      some (declaration.baseClass.map Target.TypeExpr.text) :=
    holds.read? (by simp) (carries_optionalText _)
  have decorators : value.read? "decorators" _ = some declaration.decorators :=
    holds.read? (by simp) (carries_texts declaration.decorators)
  have typeParameters : value.read? "typeParameters" _ = some declaration.typeParameters :=
    holds.read? (by simp) (carries_texts declaration.typeParameters)
  have imports : value.read? "imports" _ = some (declaration.imports.map id) :=
    holds.read? (by simp) (carries_list fun statement _ => carries_import statement)
  have properties : value.read? "properties" _ =
      some (declaration.properties.map Target.Property.asSent) :=
    holds.read? (by simp) (carries_list fun property _ => carries_property property)
  rw [readDeclaration?, noMembers]
  simp only [noConstructor, readDataClass?, name, baseClass, decorators, typeParameters, imports,
    properties, List.map_id]
  simp [Target.DataClass.asSent, Function.comp_def]

theorem carries_service (declaration : Target.ServiceClass) :
    Carries readDeclaration? (serviceToJson declaration) (.service declaration.asSent) := by
  have construction : Carries readConstructor? (ofMembers
      [("parameters", .array (declaration.constructorParameters.map parameterToJson))])
      (declaration.constructorParameters.map Target.Parameter.asSent) := by
    refine carries_ofMembers (.ofMembers (by simp [Written.map, written_parameter])) (by simp) ?_
    intro value holds
    exact holds.read? (by simp) (carries_list fun parameter _ => carries_parameter parameter)
  refine carries_ofMembers (written_service declaration) (by simp) ?_
  intro value holds
  have noMembers : value.field? "members" = none := holds.absent "members" (by simp)
  have parameters : value.read? "constructorDef" _ =
      some (some (declaration.constructorParameters.map Target.Parameter.asSent)) :=
    holds.read? (by simp) (construction.optional? rfl)
  have name : value.read? "name" _ = some declaration.name :=
    holds.read? (by simp) (carries_text declaration.name)
  have decorators : value.read? "decorators" _ = some declaration.decorators :=
    holds.read? (by simp) (carries_texts declaration.decorators)
  have imports : value.read? "imports" _ = some (declaration.imports.map id) :=
    holds.read? (by simp) (carries_list fun statement _ => carries_import statement)
  have properties : value.read? "properties" _ =
      some (declaration.properties.map Target.Property.asSent) :=
    holds.read? (by simp) (carries_list fun property _ => carries_property property)
  have methods : value.read? "methods" _ = some (declaration.methods.map Target.Method.asSent) :=
    holds.read? (by simp) (carries_list fun method _ => carries_method method)
  rw [readDeclaration?, noMembers]
  simp [parameters, readService?, name, decorators, imports, properties, methods,
    Target.ServiceClass.asSent]

theorem carries_enum (declaration : Target.Enum) :
    Carries readDeclaration? (enumToJson declaration) (.enum declaration) := by
  refine carries_ofMembers (written_enum declaration) (by simp) ?_
  intro value holds
  have name : value.read? "name" _ = some declaration.name :=
    holds.read? (by simp) (carries_text declaration.name)
  have members : value.read? "members" _ = some (declaration.members.map id) :=
    holds.read? (by simp) (carries_list fun member _ => carries_enumMember member)
  obtain ⟨listed, there, -⟩ := Option.bind_eq_some_iff.mp members
  rw [readDeclaration?, there]
  simp [readEnum?, name, members]

theorem carries_declaration (declaration : Target.Declaration) :
    Carries readDeclaration? (declarationToJson declaration) declaration.asSent := by
  cases declaration with
  | dataClass declaration => exact carries_dataClass declaration
  | service declaration => exact carries_service declaration
  | enum declaration => exact carries_enum declaration

/-- The data model in the text of a request. -/
def dataModel? (wire : String) : Option Value := do
  let document ← Json.parse? wire
  (← document.meaning?).field? "dataModel"

/-- The text that a rendering service can print for a data model. -/
def remoteText? (model : Value) : Option String :=
  (readDeclaration? model).map Target.Declaration.text

/-- The data model on the wire is what the declaration means. -/
theorem dataModel?_wire (request : Request) :
    dataModel? request.wire = (declarationToJson request.declaration).meaning? := by
  obtain ⟨model, meant⟩ := (written_declaration request.declaration).exists_meaning
  have parsed : Json.parse? request.wire = some request.toJson :=
    (written_toJson request).parse?_compact
  have carried : Carries (Value.read? · "dataModel" some) request.toJson model := by
    refine carries_ofMembers (written_toJson request) (by simp) ?_
    intro value holds
    exact holds.read? (by simp) ⟨model, meant, rfl⟩
  obtain ⟨value, read, there⟩ := carried
  obtain ⟨other, there, same⟩ := Option.bind_eq_some_iff.mp there
  cases same
  simp [dataModel?, parsed, read, there, meant]

theorem exists_dataModel (request : Request) : ∃ model, dataModel? request.wire = some model ∧
    readDeclaration? model = some request.declaration.asSent := by
  rw [dataModel?_wire]
  exact carries_declaration request.declaration

end Request

namespace Binding

variable {dates : DateMapping}

/-! ## Methods without a result -/

/-- The text of a mapped type is `void` only for the built-in type, or for its namesakes. -/
theorem Maps.tellsVoid {source : Source.TypeExpr} {type : Target.TypeExpr}
    (maps : Maps dates source type) (unnamed : Target.Primitive.void.text ∉ source.names) :
    type.TellsVoid := by
  intro void
  have spelled : type.chars = "void".toList := by
    have chars := congrArg String.toList void
    rwa [Target.TypeExpr.text, String.toList_ofList] at chars
  have last := congrArg List.getLast? spelled
  induction maps with
  | primitive known =>
      rcases target_of_primitive? known with ⟨builtIn, -, same⟩ | same
      · rw [same, Target.TypeExpr.text, Target.TypeExpr.chars, String.ofList_toList] at void
        rw [same, Target.Primitive.text_inj void]
      · rw [same] at spelled
        cases spelled
  | nullable plain maps ih =>
      rw [Target.TypeExpr.chars_nullable, List.getLast?_append] at last
      cases last
  | again maps ih => exact ih unnamed void spelled last
  | @collection element type maps ih =>
      unfold Target.TypeExpr.chars at last
      split at last <;> rw [List.getLast?_append] at last <;> cases last
  | dictionary maps mapsToo ih ihToo =>
      rw [Target.TypeExpr.chars_record, Target.TypeExpr.chars_generic, List.getLast?_concat] at last
      cases last
  | reference name kind =>
      rw [Target.TypeExpr.text, Target.TypeExpr.chars, String.ofList_toList] at void
      exact absurd (void ▸ List.mem_cons_self) unnamed
  | generic name kind nonempty length maps ih =>
      rw [Target.TypeExpr.chars_generic, List.getLast?_concat] at last
      cases last
  | typeParameter name =>
      rw [Target.TypeExpr.text, Target.TypeExpr.chars, String.ofList_toList] at void
      exact absurd (void ▸ List.mem_cons_self) unnamed

theorem tellsVoid_of_bind {context : Context} {model : Source.Model}
    {declaration : Target.Declaration} (bound : bind context model = .ok declaration)
    (unnamed : ∀ type ∈ model.types, Target.Primitive.void.text ∉ type.names) :
    ∀ method ∈ declaration.methods, method.returnType.TellsVoid := by
  cases binds_of_bind bound with
  | ofClass => simp [Target.Declaration.methods]
  | ofEnum => simp [Target.Declaration.methods]
  | @ofService model service own =>
      have plain : ∀ source ∈ model.methods,
          Target.Primitive.void.text ∉ source.returnType.names := fun source inside =>
        unnamed _ (List.mem_flatMap.mpr ⟨source, inside, List.mem_cons_self⟩)
      have declared := (declaresService_of_bindService own).methods
      refine forall_mem_of_forall₂ ?_ ((List.forall₂_and_left _ _).mpr ⟨plain, declared⟩)
      rintro source method ⟨unnamed, own⟩
      obtain ⟨result, mapped, same⟩ := own.result
      rw [same]
      exact (maps_of_mapType _ mapped).tellsVoid unnamed

end Binding

namespace Request

/-- A request of a plan, for a model with no type that goes by the name of `void`. -/
def IsPlanned (request : Request) : Prop :=
  ∃ (context : Binding.Context) (graph : Source.Graph) (index : Nat) (entry : Plan.Entry)
    (model : Source.Model), (Plan.ofGraph context graph)[index]? = some entry ∧
      graph.models[index]? = some model ∧ entry.request = .ok request ∧
      ∀ type ∈ model.types, Target.Primitive.void.text ∉ type.names

theorem IsPlanned.text_asSent {request : Request} (planned : request.IsPlanned) :
    request.declaration.asSent.text = request.declaration.text := by
  obtain ⟨context, graph, index, entry, model, listed, own, kept, unnamed⟩ := planned
  obtain ⟨source, same, -, alone, -⟩ := Plan.ofGraph_ok context listed kept
  obtain rfl := Option.some.inj (same.symm.trans own)
  obtain ⟨bound, -, -⟩ := Plan.ofModel_eq_ok alone
  exact Target.Declaration.text_asSent (Binding.tellsVoid_of_bind bound unnamed)

/-- The data model on the wire is enough to print what is printed on the spot: a rendering service
can print that text, and requests with the same data model are printed the same. -/
theorem inProcess_of_dataModel {σ : Type} {first second : Request} (planned : first.IsPlanned)
    (plannedToo : second.IsPlanned) :
    (∃ model, dataModel? first.wire = some model ∧
      remoteText? model = some first.declaration.text) ∧
    (dataModel? first.wire = dataModel? second.wire →
      (Renderer.inProcess first : StateM σ Reply) = Renderer.inProcess second) := by
  obtain ⟨model, sent, read⟩ := exists_dataModel first
  obtain ⟨other, sentToo, readToo⟩ := exists_dataModel second
  have text : remoteText? model = some first.declaration.text := by
    rw [remoteText?, read, Option.map_some, planned.text_asSent]
  have textToo : remoteText? other = some second.declaration.text := by
    rw [remoteText?, readToo, Option.map_some, plannedToo.text_asSent]
  refine ⟨⟨model, sent, text⟩, ?_⟩
  intro same
  rw [sent, sentToo, Option.some_inj] at same
  rw [same, textToo, Option.some_inj] at text
  rw [Renderer.inProcess, Renderer.inProcess, text]

/-- A type parameter that goes by the name of a built-in type cannot be told from it, and need not
be. -/
theorem inProcess_of_dataModel_label :
    let plan (root : String) (type : Source.TypeExpr) : List Plan.Entry :=
      Plan.ofGraph { layout := { root := ⟨root⟩ } }
        { classes := [{ name := "Label", properties := [⟨"Text", type⟩] }] }
    ∃ first second, (plan "out" (.primitive "string")).map (·.request) = [.ok first] ∧
      (plan "gen" (.typeParameter "string")).map (·.request) = [.ok second] ∧
      dataModel? first.wire = dataModel? second.wire ∧
      (Renderer.inProcess first : StateM Unit Reply) = Renderer.inProcess second := by
  intro plan
  let data (request : Request) : List Char := (declarationToJson request.declaration).compactChars
  have same : (plan "out" (.primitive "string")).map (·.request.map data) =
      (plan "gen" (.typeParameter "string")).map (·.request.map data) := by decide +kernel
  have names : (plan "out" (.primitive "string")).map (·.request.map name) = [.ok "Label"] := by
    decide +kernel
  obtain ⟨entry, listed, named⟩ := List.map_eq_singleton_iff.mp names
  obtain ⟨first, own, -⟩ := Except.map_eq_ok_iff.mp named
  rw [listed, List.map_singleton, own] at same
  obtain ⟨other, listedToo, sameToo⟩ := List.map_eq_singleton_iff.mp same.symm
  obtain ⟨second, ownToo, equal⟩ := Except.map_eq_ok_iff.mp sameToo
  have there : (plan "out" (.primitive "string"))[0]? = some entry := by rw [listed]; rfl
  have thereToo : (plan "gen" (.typeParameter "string"))[0]? = some other := by rw [listedToo]; rfl
  have planned : first.IsPlanned := ⟨_, _, 0, entry, _, there, rfl, own, by
    simp [Source.Model.types, Source.TypeExpr.names]⟩
  have plannedToo : second.IsPlanned := ⟨_, _, 0, other, _, thereToo, rfl, ownToo, by
    simp [Source.Model.types, Source.TypeExpr.names, Target.Primitive.text]⟩
  have documents : declarationToJson first.declaration = declarationToJson second.declaration := by
    have texts : (declarationToJson second.declaration).compact =
        (declarationToJson first.declaration).compact := congrArg String.ofList equal
    have parsed := (written_declaration first.declaration).parse?_compact
    rw [← texts, (written_declaration second.declaration).parse?_compact] at parsed
    exact (Option.some.inj parsed).symm
  have models : dataModel? first.wire = dataModel? second.wire := by
    rw [dataModel?_wire, dataModel?_wire, documents]
  refine ⟨first, second, by rw [listed, List.map_singleton, own], ?_, models,
    (inProcess_of_dataModel planned plannedToo).2 models⟩
  rw [listedToo, List.map_singleton, ownToo]

end Request

end ApiBindings