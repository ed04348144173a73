import ApiBindings.Proofs.Json.Records
import ApiBindings.Source.Document

/-!
# Written graphs are read back

A graph, and a type on its own, is read back from its document, whatever its texts are, if the
containers of the document nest no deeper than a reader allows.  Types come first, by the way they
are nested; models are records of texts, types and lists of smaller records.
-/

namespace ApiBindings

theorem Http.Verb.ofText?_text (verb : Verb) : ofText? verb.text = some verb := by
  cases verb <;> rfl

namespace Source

open Json

theorem DependencyKind.ofText?_text (kind : DependencyKind) : ofText? kind.text = some kind := by
  cases kind <;> rfl

namespace TypeExpr

/-! ## Types -/

/-- A description is told by its tag, and its fields are read by their names. -/
theorem exists_content (nested : Bool) (kind : String) (members : List (String × Json))
    (missing : List String) (distinct : ("kind" :: (members.map (·.1) ++ missing)).Nodup) :
    ∃ content, tagged? nested (ofMembers (("kind", ofText kind) :: members)) =
        some (.ofText kind, content) ∧
      content.fields? (members.map (·.1) ++ missing) =
        some (members.map (some ·.2) ++ missing.map fun _ => none) := by
  obtain ⟨untagged, names⟩ := List.nodup_cons.mp distinct
  obtain ⟨named, -, apart⟩ := List.nodup_append.mp names
  rw [List.mem_append, not_or] at untagged
  refine ⟨ofMembers (("kind", ofText kind) :: members), ?_, ?_⟩
  · have tag : uniqueField? (("kind", ofText kind) :: members) "kind" =
        some (some (ofText kind)) := by
      rw [uniqueField?, List.filter_cons, if_pos (beq_self_eq_true _), filter_of_not_mem untagged.1]
    have known : Kind.ofJson? nested (ofText kind) = some (.ofText kind) := by
      rw [Kind.ofJson?, text?_ofText]
    rw [ofMembers, tagged?, namedMembers?_spelled]
    simp only [Option.bind_eq_bind, Option.bind_some, tag, known, Option.pure_def]
  · apply fields?_ofMembers [("kind", ofText kind)] members missing
    · exact List.nodup_cons.mpr ⟨untagged.1, named⟩
    · intro name absent known
      cases known with
      | head => exact untagged.2 absent
      | tail _ known => exact apart name known name absent rfl

theorem dependencyKind?_ofText (kind : DependencyKind) :
    dependencyKind? (ofText kind.text) = some kind := by
  rw [dependencyKind?, choice?_ofText]
  exact kind.ofText?_text

/-- A type is read back from its description, on its own or inside of another type. -/
def ReadBack (type : TypeExpr) : Prop :=
  ∀ nested levels, type.toJson.height ≤ levels → ofReadable? levels nested type.toJson = some type

theorem readBack_primitive (name : String) : ReadBack (.primitive name) := by
  intro nested levels fits
  obtain ⟨inside, rfl, -⟩ := exists_inside fits
  obtain ⟨content, tagged, read⟩ : ∃ content,
      tagged? nested (primitive name).toJson = some (.primitive, content) ∧
      content.fields? ["name"] = some [some (ofText name)] :=
    exists_content nested "primitive" [("name", ofText name)] [] (by simp)
  rw [ofReadable?, tagged]
  simp only [Option.bind_eq_bind, Option.bind_some, read, text?_ofText, Option.pure_def]

theorem readBack_nullable {inner : TypeExpr} (back : ReadBack inner) :
    ReadBack (.nullable inner) := by
  intro nested levels fits
  obtain ⟨inside, rfl, lower⟩ := exists_inside fits
  obtain ⟨content, tagged, read⟩ : ∃ content,
      tagged? nested (nullable inner).toJson = some (.nullable, content) ∧
      content.fields? ["inner"] = some [some inner.toJson] :=
    exists_content nested "nullable" [("inner", inner.toJson)] [] (by simp)
  have part := back true inside (lower ("inner", inner.toJson) (by simp))
  rw [ofReadable?, tagged]
  simp only [Option.bind_eq_bind, Option.bind_some, read, part, Option.pure_def]

theorem readBack_collection {element : TypeExpr} (back : ReadBack element) :
    ReadBack (.collection element) := by
  intro nested levels fits
  obtain ⟨inside, rfl, lower⟩ := exists_inside fits
  obtain ⟨content, tagged, read⟩ : ∃ content,
      tagged? nested (collection element).toJson = some (.collection, content) ∧
      content.fields? ["element"] = some [some element.toJson] :=
    exists_content nested "collection" [("element", element.toJson)] [] (by simp)
  have part := back true inside (lower ("element", element.toJson) (by simp))
  rw [ofReadable?, tagged]
  simp only [Option.bind_eq_bind, Option.bind_some, read, part, Option.pure_def]

theorem readBack_dictionary {key value : TypeExpr} (keyBack : ReadBack key)
    (valueBack : ReadBack value) : ReadBack (.dictionary key value) := by
  intro nested levels fits
  obtain ⟨inside, rfl, lower⟩ := exists_inside fits
  obtain ⟨content, tagged, read⟩ : ∃ content,
      tagged? nested (dictionary key value).toJson = some (.dictionary, content) ∧
      content.fields? ["key", "value"] = some [some key.toJson, some value.toJson] :=
    exists_content nested "dictionary" [("key", key.toJson), ("value", value.toJson)] [] (by simp)
  have keyPart := keyBack true inside (lower ("key", key.toJson) (by simp))
  have valuePart := valueBack true inside (lower ("value", value.toJson) (by simp))
  rw [ofReadable?, tagged]
  simp only [Option.bind_eq_bind, Option.bind_some, read, keyPart, valuePart, Option.pure_def]

theorem listToJson_eq_map (types : List TypeExpr) : listToJson types = types.map toJson := by
  induction types with
  | nil => rfl
  | cons type rest ih => rw [listToJson, ih, List.map_cons]

theorem readBack_reference (name : String) (kind : DependencyKind) {arguments : List TypeExpr}
    (back : ∀ argument ∈ arguments, ReadBack argument) :
    ReadBack (.reference name kind arguments) := by
  intro nested levels fits
  cases arguments with
  | nil =>
      obtain ⟨inside, rfl, -⟩ := exists_inside fits
      obtain ⟨content, tagged, read⟩ : ∃ content,
          tagged? nested (reference name kind []).toJson = some (.reference, content) ∧
          content.fields? ["name", "dependencyKind", "arguments"] =
            some [some (ofText name), some (ofText kind.text), none] :=
        exists_content nested "reference"
          [("name", ofText name), ("dependencyKind", ofText kind.text)] ["arguments"] (by simp)
      rw [ofReadable?, tagged]
      simp only [Option.bind_eq_bind, Option.bind_some, read, text?_ofText,
        dependencyKind?_ofText, Option.pure_def]
  | cons first rest =>
      obtain ⟨inside, rfl, lower⟩ := exists_inside fits
      obtain ⟨content, tagged, read⟩ : ∃ content,
          tagged? nested (reference name kind (first :: rest)).toJson =
            some (.reference, content) ∧
          content.fields? ["name", "dependencyKind", "arguments"] =
            some [some (ofText name), some (ofText kind.text),
              some (.array (listToJson (first :: rest)))] :=
        exists_content nested "reference"
          [("name", ofText name), ("dependencyKind", ofText kind.text),
            ("arguments", .array (listToJson (first :: rest)))] [] (by simp)
      have parts : (listToJson (first :: rest)).mapM (fun item => ofReadable? inside true item) =
          some (first :: rest) := by
        rw [listToJson_eq_map]
        apply Option.mapM_map_eq_some
        intro argument member
        apply back argument member
        have list := lower ("arguments", .array (listToJson (first :: rest))) (by simp [listToJson])
        rw [listToJson_eq_map] at list
        have own := height_lt_of_mem_array (List.mem_map_of_mem (f := toJson) member)
        exact Nat.le_of_lt (Nat.lt_of_lt_of_le own list)
      rw [ofReadable?, tagged]
      simp only [Option.bind_eq_bind, Option.bind_some, read, text?_ofText,
        dependencyKind?_ofText, parts, Option.pure_def]

theorem readBack_typeParameter (name : String) : ReadBack (.typeParameter name) := by
  intro nested levels fits
  obtain ⟨inside, rfl, -⟩ := exists_inside fits
  obtain ⟨content, tagged, read⟩ : ∃ content,
      tagged? nested (typeParameter name).toJson = some (.typeParameter, content) ∧
      content.fields? ["name"] = some [some (ofText name)] :=
    exists_content nested "typeParameter" [("name", ofText name)] [] (by simp)
  rw [ofReadable?, tagged]
  simp only [Option.bind_eq_bind, Option.bind_some, read, text?_ofText, Option.pure_def]

theorem readBack_unknown : ReadBack .unknown := by
  intro nested levels fits
  obtain ⟨inside, rfl, -⟩ := exists_inside fits
  obtain ⟨content, tagged, read⟩ : ∃ content,
      tagged? nested unknown.toJson = some (.unknown, content) ∧ content.fields? [] = some [] :=
    exists_content nested "unknown" [] [] (by simp)
  rw [ofReadable?, tagged]
  simp only [Option.bind_eq_bind, Option.bind_some, read, Option.pure_def]

mutual

/-- Every type is read back, one kind of type after the other. -/
theorem readBack : ∀ type, ReadBack type
  | .primitive name => readBack_primitive name
  | .nullable inner => readBack_nullable (readBack inner)
  | .collection element => readBack_collection (readBack element)
  | .dictionary key value => readBack_dictionary (readBack key) (readBack value)
  | .reference name kind arguments => readBack_reference name kind (readBack_all arguments)
  | .typeParameter name => readBack_typeParameter name
  | .unknown => readBack_unknown

theorem readBack_all : ∀ types : List TypeExpr, ∀ type ∈ types, ReadBack type
  | [] => by simp
  | first :: rest => List.forall_mem_cons.mpr ⟨readBack first, readBack_all rest⟩

end

mutual

theorem written_toJson : ∀ type : TypeExpr, Written type.toJson
  | .primitive name => .ofMembers (by simp [Written.ofText])
  | .nullable inner => .ofMembers (by simp [Written.ofText, written_toJson inner])
  | .collection element => .ofMembers (by simp [Written.ofText, written_toJson element])
  | .dictionary key value =>
      .ofMembers (by simp [Written.ofText, written_toJson key, written_toJson value])
  | .reference name kind [] => .ofMembers (by simp [Written.ofText])
  | .reference name kind (first :: rest) => by
      have arguments : Written (.array (first.toJson :: listToJson rest)) :=
        .array (List.forall_mem_cons.mpr ⟨written_toJson first, written_listToJson rest⟩)
      exact .ofMembers (by simp [Written.ofText, arguments])
  | .typeParameter name => .ofMembers (by simp [Written.ofText])
  | .unknown => .ofMembers (by simp [Written.ofText])

theorem written_listToJson : ∀ types : List TypeExpr, ∀ item ∈ listToJson types, Written item
  | [] => by simp [listToJson]
  | first :: rest => List.forall_mem_cons.mpr ⟨written_toJson first, written_listToJson rest⟩

end

theorem toJson_ne_null (type : TypeExpr) : type.toJson ≠ .null := by
  cases type with
  | reference name kind arguments => cases arguments <;> simp [toJson, ofMembers]
  | _ => simp [toJson, ofMembers]

theorem roundTrips : RoundTrips TypeExpr.ofJson? TypeExpr.toJson := by
  intro type levels fits
  have readable := (written_toJson type).isReadable
  rw [ofJson?, if_pos (by simp [fits, readable])]
  exact readBack type false levels fits

end TypeExpr

/-! ## Models -/

theorem TypeReference.roundTrips : RoundTrips TypeReference.ofJson? TypeReference.toJson := by
  intro reference levels fits
  obtain ⟨inside, read, -⟩ : ∃ inside,
      reference.toJson.record? levels ["name", "dependencyKind"] =
        some (inside, [some (ofText reference.name), some (ofText reference.kind.text)]) ∧ _ :=
    record?_ofMembers (by simp) fits
  rw [ofJson?, read]
  simp only [Option.bind_eq_bind, Option.bind_some, name?, choice?_ofText, text?_ofText,
    DependencyKind.ofText?_text, Option.pure_def]

theorem Property.roundTrips : RoundTrips Property.ofJson? Property.toJson := by
  intro property levels fits
  obtain ⟨inside, read, lower⟩ : ∃ inside,
      property.toJson.record? levels ["name", "type"] =
        some (inside, [some (ofText property.name), some property.type.toJson]) ∧ _ :=
    record?_ofMembers (by simp) fits
  have type := TypeExpr.roundTrips property.type inside (lower ("type", _) (by simp))
  rw [ofJson?, read]
  simp only [Option.bind_eq_bind, Option.bind_some, text?_ofText, type, Option.pure_def]

theorem Class.roundTrips : RoundTrips Class.ofJson? Class.toJson := by
  intro model levels fits
  obtain ⟨inside, read, lower⟩ : ∃ inside,
      model.toJson.record? levels
        ["name", "baseClass", "typeParameter", "properties", "imports"] =
        some (inside, [some (ofText model.name),
          some ((model.baseClass.map TypeExpr.toJson).getD .null),
          some (ofText? model.typeParameter),
          some (.array (model.properties.map Property.toJson)),
          some (.array (model.imports.map TypeReference.toJson))]) ∧ _ :=
    record?_ofMembers (by simp) fits
  have base := TypeExpr.roundTrips.optional? TypeExpr.toJson_ne_null model.baseClass
    (lower ("baseClass", (model.baseClass.map TypeExpr.toJson).getD .null) (by simp))
  have properties := Property.roundTrips.list? model.properties (lower ("properties", _) (by simp))
  have imports := TypeReference.roundTrips.list? model.imports (lower ("imports", _) (by simp))
  rw [ofJson?, read]
  simp only [Option.bind_eq_bind, Option.bind_some, text?_ofText, base, optional?_ofText?,
    properties, imports, Option.pure_def]

theorem EnumMember.roundTrips : RoundTrips EnumMember.ofJson? EnumMember.toJson := by
  intro member levels fits
  obtain ⟨inside, read, -⟩ : ∃ inside,
      member.toJson.record? levels ["name", "value"] =
        some (inside, [some (ofText member.name), some (ofText? member.value)]) ∧ _ :=
    record?_ofMembers (by simp) fits
  rw [ofJson?, read]
  simp only [Option.bind_eq_bind, Option.bind_some, text?_ofText, optional?_ofText?,
    Option.pure_def]

theorem Enum.roundTrips : RoundTrips Enum.ofJson? Enum.toJson := by
  intro model levels fits
  obtain ⟨inside, read, lower⟩ : ∃ inside,
      model.toJson.record? levels ["name", "members"] =
        some (inside, [some (ofText model.name),
          some (.array (model.members.map EnumMember.toJson))]) ∧ _ :=
    record?_ofMembers (by simp) fits
  have members := EnumMember.roundTrips.list? model.members (lower ("members", _) (by simp))
  rw [ofJson?, read]
  simp only [Option.bind_eq_bind, Option.bind_some, text?_ofText, members, Option.pure_def]

theorem Parameter.roundTrips : RoundTrips Parameter.ofJson? Parameter.toJson := by
  intro parameter levels fits
  obtain ⟨inside, read, lower⟩ : ∃ inside,
      parameter.toJson.record? levels ["name", "type"] =
        some (inside, [some (ofText parameter.name), some parameter.type.toJson]) ∧ _ :=
    record?_ofMembers (by simp) fits
  have type := TypeExpr.roundTrips parameter.type inside (lower ("type", _) (by simp))
  rw [ofJson?, read]
  simp only [Option.bind_eq_bind, Option.bind_some, text?_ofText, type, Option.pure_def]

theorem Method.roundTrips : RoundTrips Method.ofJson? Method.toJson := by
  intro method levels fits
  obtain ⟨inside, read, lower⟩ : ∃ inside,
      method.toJson.record? levels ["name", "httpMethod", "returnType", "parameters"] =
        some (inside, [some (ofText method.name), some (ofText method.verb.text),
          some method.returnType.toJson,
          some (.array (method.parameters.map Parameter.toJson))]) ∧ _ :=
    record?_ofMembers (by simp) fits
  have returnType := TypeExpr.roundTrips method.returnType inside
    (lower ("returnType", _) (by simp))
  have parameters := Parameter.roundTrips.list? method.parameters
    (lower ("parameters", _) (by simp))
  rw [ofJson?, read]
  simp only [Option.bind_eq_bind, Option.bind_some, name?, choice?_ofText, text?_ofText,
    Http.Verb.ofText?_text, returnType, parameters, Option.pure_def]

theorem Service.roundTrips : RoundTrips Service.ofJson? Service.toJson := by
  intro model levels fits
  obtain ⟨inside, read, lower⟩ : ∃ inside,
      model.toJson.record? levels ["name", "routePrefix", "methods", "imports"] =
        some (inside, [some (ofText model.name), some (ofText model.route),
          some (.array (model.methods.map Method.toJson)),
          some (.array (model.imports.map TypeReference.toJson))]) ∧ _ :=
    record?_ofMembers (by simp) fits
  have methods := Method.roundTrips.list? model.methods (lower ("methods", _) (by simp))
  have imports := TypeReference.roundTrips.list? model.imports (lower ("imports", _) (by simp))
  rw [ofJson?, read]
  simp only [Option.bind_eq_bind, Option.bind_some, text?_ofText, methods, imports,
    Option.pure_def]

theorem Graph.roundTrips : RoundTrips Graph.ofJson? Graph.toJson := by
  intro graph levels fits
  obtain ⟨inside, read, lower⟩ : ∃ inside,
      graph.toJson.record? levels ["classes", "enums", "services"] =
        some (inside, [some (.array (graph.classes.map Class.toJson)),
          some (.array (graph.enums.map Enum.toJson)),
          some (.array (graph.services.map Service.toJson))]) ∧ _ :=
    record?_ofMembers (by simp) fits
  have classes := Class.roundTrips.list? graph.classes (lower ("classes", _) (by simp))
  have enums := Enum.roundTrips.list? graph.enums (lower ("enums", _) (by simp))
  have services := Service.roundTrips.list? graph.services (lower ("services", _) (by simp))
  rw [ofJson?, read]
  simp only [Option.bind_eq_bind, Option.bind_some, classes, enums, services, Option.pure_def]

/-! ## Documents -/

theorem TypeReference.written_toJson (reference : TypeReference) : Written reference.toJson :=
  .ofMembers (by simp [Written.ofText])

theorem Property.written_toJson (property : Property) : Written property.toJson :=
  .ofMembers (by simp [Written.ofText, TypeExpr.written_toJson])

theorem Class.written_toJson (model : Class) : Written model.toJson := by
  have base : Written ((model.baseClass.map TypeExpr.toJson).getD .null) := by
    cases model.baseClass with
    | none => exact .null
    | some base => exact TypeExpr.written_toJson base
  exact .ofMembers (by simp [Written.ofText, Written.ofText?, Written.map, base,
    Property.written_toJson, TypeReference.written_toJson])

theorem EnumMember.written_toJson (member : EnumMember) : Written member.toJson :=
  .ofMembers (by simp [Written.ofText, Written.ofText?])

theorem Enum.written_toJson (model : Enum) : Written model.toJson :=
  .ofMembers (by simp [Written.ofText, Written.map, EnumMember.written_toJson])

theorem Parameter.written_toJson (parameter : Parameter) : Written parameter.toJson :=
  .ofMembers (by simp [Written.ofText, TypeExpr.written_toJson])

theorem Method.written_toJson (method : Method) : Written method.toJson :=
  .ofMembers (by simp [Written.ofText, Written.map, TypeExpr.written_toJson,
    Parameter.written_toJson])

theorem Service.written_toJson (model : Service) : Written model.toJson :=
  .ofMembers (by simp [Written.ofText, Written.map, Method.written_toJson,
    TypeReference.written_toJson])

theorem Graph.written_toJson (graph : Graph) : Written graph.toJson :=
  .ofMembers (by simp [Written.map, Class.written_toJson, Enum.written_toJson,
    Service.written_toJson])

/-- Reading undoes writing, for graphs and for types on their own, in both layouts of the document.
Nothing is asked of the texts in them, and of the types only that they do not nest too deep. -/
theorem parse_write :
    (∀ graph : Graph, graph.toJson.height ≤ maxLevels →
      Graph.parse? graph.write = some graph ∧
      Graph.parse? graph.toJson.indented = some graph) ∧
    (∀ type : TypeExpr, type.toJson.height ≤ maxLevels →
      TypeExpr.parse? type.write = some type ∧
      TypeExpr.parse? type.toJson.indented = some type) := by
  constructor
  · intro graph fits
    have written := graph.written_toJson
    have read := Graph.roundTrips graph maxLevels fits
    constructor
    · rw [Graph.parse?, Graph.write, written.parse?_compact]
      exact read
    · rw [Graph.parse?, written.parse?_indented]
      exact read
  · intro type fits
    have written := type.written_toJson
    have read := TypeExpr.roundTrips type maxLevels fits
    constructor
    · rw [TypeExpr.parse?, TypeExpr.write, written.parse?_compact]
      exact read
    · rw [TypeExpr.parse?, written.parse?_indented]
      exact read

theorem parse_write_page :
    let page : TypeExpr :=
      .nullable (.reference "Page" .model
        [.primitive "int", .dictionary .unknown (.typeParameter "T")])
    let graph : Graph := {
      classes := [{
        name := "Quote \" \\ and \u0001 and \u2028"
        properties := [⟨"Pages", .collection page⟩] }]
      services := [{ name := "Files", route := "", methods := [⟨"Store", .patch, page, []⟩] }] }
    graph.toJson.height = 11 ∧ Graph.parse? graph.write = some graph ∧
      page.toJson.height = 5 ∧ TypeExpr.parse? page.write = some page := by
  intro page graph
  have whole : graph.toJson.height = 11 := by decide +kernel
  have part : page.toJson.height = 5 := by decide +kernel
  refine ⟨whole, (parse_write.1 graph ?_).1, part, (parse_write.2 page ?_).1⟩
  · rw [whole]
    decide
  · rw [part]
    decide

end Source

end ApiBindings
