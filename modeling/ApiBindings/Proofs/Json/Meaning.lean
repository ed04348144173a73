import ApiBindings.Proofs.Json.Records

/-!
# What documents mean

Documents are equal as JSON if they mean the same value, however they are spelled and in whatever
order the members of their objects come.  Every document that is written has a meaning, and the
meaning of a written record has the meanings of its fields, each under its own name.
-/

namespace ApiBindings.Json

/-- A value, apart from how it is written. Numbers are told apart by their spellings. -/
inductive Value where
  | null
  | bool (value : Bool)
  | number (spelling : List Char)
  | text (text : String)
  | list (items : List Value)
  /-- An object, by the values of its fields. -/
  | record (fields : String → Option Value)

mutual

/-- What a document means. Texts that cannot be read mean nothing. -/
def meaning? : Json → Option Value
  | .null => some .null
  | .bool value => some (.bool value)
  | .number spelling => some (.number spelling)
  | .string spelling => (unspell? spelling).map fun text => .text (String.ofList text)
  | .array items => (meanings? items).map .list
  | .object members => (namedMeanings? members).map fun named =>
      -- of members with the same key the last one counts
      .record fun name => named.reverse.lookup name

/-- What the items of an array mean. -/
def meanings? : List Json → Option (List Value)
  | [] => some []
  | item :: rest => do
      return (← item.meaning?) :: (← meanings? rest)

/-- What the members of an object mean, under their names. -/
def namedMeanings? : List (List Char × Json) → Option (List (String × Value))
  | [] => some []
  | (key, value) :: rest => do
      return (String.ofList (← unspell? key), ← value.meaning?) :: (← namedMeanings? rest)

end

/-! ## Reading values -/

namespace Value

/-- The value of a field, if a value has it. -/
def field? : Value → String → Option Value
  | .record fields, name => fields name
  | _, _ => none

/-- Read a field. -/
def read? {α : Type} (value : Value) (name : String) (item? : Value → Option α) : Option α :=
  (value.field? name).bind item?

/-- The text of a value that is one. -/
def text? : Value → Option String
  | .text content => some content
  | _ => none

/-- The truth value of a value that is one. -/
def bool? : Value → Option Bool
  | .bool value => some value
  | _ => none

/-- A value that may be `null`. -/
def optional? {α : Type} (item? : Value → Option α) : Value → Option (Option α)
  | .null => some none
  | value => (item? value).map some

/-- The items of a list. -/
def list? {α : Type} (item? : Value → Option α) : Value → Option (List α)
  | .list items => items.mapM item?
  | _ => none

end Value

/-- A document carries what is read from its meaning. -/
def Carries {α : Type} (item? : Value → Option α) (document : Json) (item : α) : Prop :=
  ∃ value, document.meaning? = some value ∧ item? value = some item

/-! ## Meanings of written documents -/

theorem meanings?_eq_mapM (items : List Json) : meanings? items = items.mapM meaning? := by
  induction items with
  | nil => rfl
  | cons item rest ih => rw [meanings?, ih, List.mapM_cons]

theorem namedMeanings?_spelled {members : List (String × Json)}
    (meant : ∀ member ∈ members, ∃ value, member.2.meaning? = some value) :
    ∃ named, namedMeanings? (members.map fun (key, value) => (spell key.toList, value)) =
        some named ∧ named.map (·.1) = members.map (·.1) ∧
      ∀ member ∈ members, ∃ value, member.2.meaning? = some value ∧ (member.1, value) ∈ named := by
  induction members with
  | nil => exact ⟨[], rfl, rfl, by simp⟩
  | cons member rest ih =>
      rw [List.forall_mem_cons] at meant
      obtain ⟨value, own⟩ := meant.1
      obtain ⟨others, found, names, later⟩ := ih meant.2
      refine ⟨(member.1, value) :: others, ?_, by simp [names], ?_⟩
      · simp [namedMeanings?, unspell?_spell, own, found]
      · rw [List.forall_mem_cons]
        refine ⟨⟨value, own, List.mem_cons_self⟩, ?_⟩
        intro other inside
        obtain ⟨meaning, meant, listed⟩ := later other inside
        exact ⟨meaning, meant, List.mem_cons_of_mem _ listed⟩

theorem lookup_reverse_of_mem {α : Type} {named : List (String × α)}
    (distinct : (named.map (·.1)).Nodup) {entry : String × α} (inside : entry ∈ named) :
    named.reverse.lookup entry.1 = some entry.2 := by
  obtain ⟨before, after, split⟩ := List.append_of_mem (List.mem_reverse.mpr inside)
  rw [List.lookup_eq_some_iff]
  refine ⟨before, after, split, ?_⟩
  rw [← List.nodup_reverse, ← List.map_reverse, split, List.map_append, List.map_cons,
    List.nodup_append] at distinct
  intro other member
  have apart := distinct.2.2 other.1 (List.mem_map_of_mem member) entry.1 List.mem_cons_self
  exact bne_iff_ne.mpr apart.symm

/-- Keys that are spelled stand for names. -/
theorem exists_names {members : List (List Char × Json)}
    (keys : ∀ member ∈ members, ∃ name, member.1 = spell name) :
    ∃ named : List (String × Json),
      members = named.map fun (key, value) => (spell key.toList, value) := by
  induction members with
  | nil => exact ⟨[], rfl⟩
  | cons member rest ih =>
      rw [List.forall_mem_cons] at keys
      obtain ⟨⟨name, same⟩, later⟩ := keys
      obtain ⟨named, rfl⟩ := ih later
      exact ⟨(String.ofList name, member.2) :: named, by simp [← same]⟩

/-- Every document that is written means something. -/
theorem Written.exists_meaning {document : Json} (written : Written document) :
    ∃ value, document.meaning? = some value := by
  induction written with
  | null => exact ⟨.null, rfl⟩
  | bool value => exact ⟨.bool value, rfl⟩
  | string text => exact ⟨.text (String.ofList text), by rw [meaning?, unspell?_spell]; rfl⟩
  | @array items _ ih =>
      have each : ∀ item ∈ items, item.meaning? = some (item.meaning?.getD .null) := by
        intro item inside
        obtain ⟨value, meant⟩ := ih item inside
        rw [meant, Option.getD_some]
      exact ⟨_, by rw [meaning?, meanings?_eq_mapM, Option.mapM_eq_some each]; rfl⟩
  | @object members keys _ ih =>
      obtain ⟨named, rfl⟩ := exists_names keys
      obtain ⟨entries, found, -⟩ := namedMeanings?_spelled fun member inside =>
        ih _ (List.mem_map_of_mem inside)
      exact ⟨_, by rw [meaning?, found]; rfl⟩

theorem written_of_mem {members : List (String × Json)} (written : Written (ofMembers members))
    {member : String × Json} (inside : member ∈ members) : Written member.2 := by
  cases written with
  | object _ each => exact each _ (List.mem_map_of_mem inside)

/-! ## What written documents carry -/

theorem carries_text (text : String) : Carries Value.text? (ofText text) text := by
  refine ⟨.text text, ?_, rfl⟩
  rw [ofText, meaning?, unspell?_spell, Option.map_some, String.ofList_toList]

theorem carries_null {α : Type} (item? : Value → Option α) :
    Carries (Value.optional? item?) .null none :=
  ⟨.null, rfl, rfl⟩

theorem Carries.optional? {α : Type} {item? : Value → Option α} {document : Json} {item : α}
    (carries : Carries item? document item) (noNull : item? .null = none) :
    Carries (Value.optional? item?) document (some item) := by
  obtain ⟨value, meant, read⟩ := carries
  refine ⟨value, meant, ?_⟩
  cases value with
  | null => cases noNull.symm.trans read
  | _ => exact congrArg (Option.map some) read

theorem carries_optionalText (text : Option String) :
    Carries (Value.optional? Value.text?) (ofText? text) text := by
  cases text with
  | none => exact carries_null Value.text?
  | some text => exact (carries_text text).optional? rfl

theorem carries_bool (value : Bool) : Carries Value.bool? (.bool value) value :=
  ⟨.bool value, rfl, rfl⟩

theorem carries_list {α β : Type} {item? : Value → Option β} {write : α → Json} {result : α → β}
    {items : List α} (each : ∀ item ∈ items, Carries item? (write item) (result item)) :
    Carries (Value.list? item?) (.array (items.map write)) (items.map result) := by
  have values : ∃ values, (items.map write).mapM meaning? = some values ∧
      values.mapM item? = some (items.map result) := by
    induction items with
    | nil => exact ⟨[], rfl, rfl⟩
    | cons item rest ih =>
        rw [List.forall_mem_cons] at each
        obtain ⟨value, meant, read⟩ := each.1
        obtain ⟨others, found, readToo⟩ := ih each.2
        exact ⟨value :: others, by simp [meant, found], by simp [read, readToo]⟩
  obtain ⟨values, meant, read⟩ := values
  exact ⟨.list values, by rw [meaning?, meanings?_eq_mapM, meant]; rfl, read⟩

/-- What a value has that a record was written to, under the names of its members. -/
structure Value.Holds (value : Value) (members : List (String × Json)) : Prop where
  absent : ∀ name, name ∉ members.map (·.1) → value.field? name = none
  read? : ∀ {α : Type} {item? : Value → Option α} {name : String} {document : Json} {item : α},
    (name, document) ∈ members → Carries item? document item → value.read? name item? = some item

/-- A written record carries what is read from its fields. -/
theorem carries_ofMembers {α : Type} {item? : Value → Option α} {item : α}
    {members : List (String × Json)} (written : Written (ofMembers members))
    (distinct : (members.map (·.1)).Nodup)
    (read : ∀ value : Value, value.Holds members → item? value = some item) :
    Carries item? (ofMembers members) item := by
  obtain ⟨named, found, names, entries⟩ :=
    namedMeanings?_spelled fun _ inside => (written_of_mem written inside).exists_meaning
  refine ⟨.record fun name => named.reverse.lookup name, ?_, read _ ⟨?_, ?_⟩⟩
  · rw [ofMembers, meaning?, found, Option.map_some]
  · intro name absent
    rw [Value.field?, List.lookup_eq_none_iff]
    intro entry member
    apply bne_iff_ne.mpr
    rintro rfl
    rw [← names] at absent
    exact absent (List.mem_map_of_mem (List.mem_reverse.mp member))
  · intro α item? name document item inside carries
    obtain ⟨value, meant, read⟩ := carries
    obtain ⟨other, meantToo, listed⟩ := entries _ inside
    cases meant.symm.trans meantToo
    rw [← names] at distinct
    have there := lookup_reverse_of_mem distinct listed
    rw [Value.read?, Value.field?, there, Option.bind_some, read]

end ApiBindings.Json
