import ApiBindings.Proofs.Binding.TypeMapping
import ApiBindings.Proofs.Target.Readability

/-!
# What the text of a mapped type tells

A mapped type forgets which built-in type stood for its counterpart, how often a type was declared
as nullable, whether a name is that of a class, an enumeration or a type parameter, and nothing
else.  What is left of the source is its normal form, which the mapped type is made of and which can
be read back from it, as long as the names in the source are told from the words of the target.
-/

namespace ApiBindings

namespace Source.TypeExpr

mutual

/-- The names in a type: of classes, of enumerations and of type parameters. -/
def names : TypeExpr → List String
  | .primitive _ => []
  | .nullable inner => inner.names
  | .collection element => element.names
  | .dictionary key value => key.names ++ value.names
  | .reference name _ arguments => name :: namesOfAll arguments
  | .typeParameter name => [name]
  | .unknown => []

/-- The names in several types. -/
def namesOfAll : List TypeExpr → List String
  | [] => []
  | type :: rest => type.names ++ namesOfAll rest

end

/-- The names in a type are identifiers, and no words that mean something else in a mapped type. -/
def IsWellNamed (type : TypeExpr) : Prop :=
  ∀ name ∈ type.names, Target.IsOwnName name ∧ name ≠ "Date"

theorem mem_namesOfAll {name : String} {types : List TypeExpr} :
    name ∈ namesOfAll types ↔ ∃ type ∈ types, name ∈ type.names := by
  induction types with
  | nil => simp [namesOfAll]
  | cons type rest ih => simp [namesOfAll, ih]

theorem IsWellNamed.key {key value : TypeExpr} (named : (dictionary key value).IsWellNamed) :
    key.IsWellNamed :=
  fun name found => named name (List.mem_append_left _ found)

theorem IsWellNamed.value {key value : TypeExpr} (named : (dictionary key value).IsWellNamed) :
    value.IsWellNamed :=
  fun name found => named name (List.mem_append_right _ found)

theorem IsWellNamed.argument {name : String} {kind : DependencyKind} {arguments : List TypeExpr}
    (named : (reference name kind arguments).IsWellNamed) {argument : TypeExpr}
    (member : argument ∈ arguments) : argument.IsWellNamed := by
  intro inside found
  refine named inside ?_
  rw [names, List.mem_cons, mem_namesOfAll]
  exact .inr ⟨argument, member, found⟩

end Source.TypeExpr

namespace Binding

open Target.TypeExpr (Readable)

/-- A type of the source without what mapping forgets about it. -/
inductive NormalType where
  /-- A built-in type is known by its counterpart. -/
  | builtIn (target : Option Target.TypeExpr)
  | nullable (inner : NormalType)
  | collection (element : NormalType)
  | dictionary (key value : NormalType)
  | named (name : String) (arguments : List NormalType)
  | unknown

namespace NormalType

/-- A nullable type is nullable once. -/
def orNull : NormalType → NormalType
  | .nullable inner => .nullable inner
  | type => .nullable type

mutual

/-- The type of the target for a normal form. -/
def target : NormalType → Target.TypeExpr
  | .builtIn (some type) => type
  | .builtIn none => .null
  | .nullable inner => .union [inner.target, .null]
  | .collection element => .array element.target
  | .dictionary key value => .record key.target value.target
  | .named name [] => .reference name
  | .named name (argument :: rest) => .generic name (argument.target :: targets rest)
  | .unknown => .null

/-- The types of the target for several normal forms. -/
def targets : List NormalType → List Target.TypeExpr
  | [] => []
  | type :: rest => type.target :: targets rest

end

mutual

/-- The normal form that a type of the target is read as. -/
def ofTarget : Target.TypeExpr → NormalType
  | .primitive type => .builtIn (some (.primitive type))
  | .array element => .collection (ofTarget element)
  | .union members => .nullable ((ofTargets members).headD .unknown)
  | .record key value => .dictionary (ofTarget key) (ofTarget value)
  | .reference name =>
      if name = "Date" then .builtIn (some (.reference name)) else .named name []
  | .generic name arguments => .named name (ofTargets arguments)

/-- The normal forms that several types are read as. -/
def ofTargets : List Target.TypeExpr → List NormalType
  | [] => []
  | type :: rest => ofTarget type :: ofTargets rest

end

theorem targets_eq_map (types : List NormalType) : targets types = types.map target := by
  induction types with
  | nil => rfl
  | cons type rest ih => rw [targets, ih, List.map_cons]

theorem ofTargets_eq_map (types : List Target.TypeExpr) : ofTargets types = types.map ofTarget := by
  induction types with
  | nil => rfl
  | cons type rest ih => rw [ofTargets, ih, List.map_cons]

end NormalType

mutual

/-- The normal form of a type, under a choice for dates. -/
def normalize (dates : DateMapping) : Source.TypeExpr → NormalType
  | .primitive name => .builtIn ((primitive? name).map (·.target dates))
  | .nullable inner => (normalize dates inner).orNull
  | .collection element => .collection (normalize dates element)
  | .dictionary key value => .dictionary (normalize dates key) (normalize dates value)
  | .reference name _ arguments => .named name (normalizeAll dates arguments)
  | .typeParameter name => .named name []
  | .unknown => .unknown

/-- The normal forms of several types. -/
def normalizeAll (dates : DateMapping) : List Source.TypeExpr → List NormalType
  | [] => []
  | type :: rest => normalize dates type :: normalizeAll dates rest

end

variable {dates : DateMapping} {source : Source.TypeExpr} {type : Target.TypeExpr}

theorem normalizeAll_eq_map (sources : List Source.TypeExpr) :
    normalizeAll dates sources = sources.map (normalize dates) := by
  induction sources with
  | nil => rfl
  | cons source rest ih => rw [normalizeAll, ih, List.map_cons]

/-- Lists that correspond one by one. -/
theorem map_eq_map_of_getElem? {α β γ : Type} {f : α → γ} {g : β → γ} {first : List α}
    {second : List β} (length : first.length = second.length)
    (same : ∀ (index : Nat) a b, first[index]? = some a → second[index]? = some b → f a = g b) :
    first.map f = second.map g := by
  apply List.ext_getElem (by simpa using length)
  intro index inside insideToo
  rw [List.length_map] at inside insideToo
  rw [List.getElem_map, List.getElem_map]
  exact same index _ _ (List.getElem?_eq_getElem inside) (List.getElem?_eq_getElem insideToo)

theorem orNull_normalize_of_not_isNullable (plain : source.isNullable = false) :
    (normalize dates source).orNull = .nullable (normalize dates source) := by
  cases source with
  | nullable inner => cases plain
  | _ => simp [normalize, NormalType.orNull]

theorem orNull_orNull (type : NormalType) : type.orNull.orNull = type.orNull := by
  cases type <;> rfl

/-- A mapped type is made of the normal form of its source. -/
theorem Maps.eq_target (maps : Maps dates source type) :
    type = (normalize dates source).target := by
  induction maps with
  | primitive known => simp [normalize, known, NormalType.target]
  | nullable plain maps ih =>
      rw [normalize, orNull_normalize_of_not_isNullable plain, NormalType.target, ← ih]
  | again maps ih =>
      rw [normalize, normalize, orNull_orNull]
      simpa only [normalize] using ih
  | collection maps ih => rw [normalize, NormalType.target, ← ih]
  | dictionary maps mapsToo ih ihToo => rw [normalize, NormalType.target, ← ih, ← ihToo]
  | reference name kind => rfl
  | @generic name kind arguments types nonempty length maps ih =>
      have each := map_eq_map_of_getElem? length fun index argument type listed listedToo =>
        (ih index argument type listed listedToo).symm
      cases arguments with
      | nil => exact absurd rfl nonempty
      | cons argument rest =>
          rw [normalize, normalizeAll, NormalType.target, NormalType.targets_eq_map,
            normalizeAll_eq_map, List.map_map]
          simpa [Function.comp_def] using each.symm
  | typeParameter name => rfl

/-- The normal form of a source can be read back from the mapped type. -/
theorem Maps.ofTarget_eq (maps : Maps dates source type) (named : source.IsWellNamed) :
    NormalType.ofTarget type = normalize dates source := by
  induction maps with
  | primitive known =>
      rw [normalize, known, Option.map_some]
      rcases target_of_primitive? known with ⟨builtIn, -, same⟩ | same
      · rw [same, NormalType.ofTarget]
      · rw [same, NormalType.ofTarget, if_pos rfl]
  | nullable plain maps ih =>
      rw [normalize, orNull_normalize_of_not_isNullable plain, NormalType.ofTarget,
        NormalType.ofTargets, List.headD_cons, ih named]
  | again maps ih =>
      rw [normalize, normalize, orNull_orNull]
      simpa only [normalize] using ih named
  | collection maps ih => rw [normalize, NormalType.ofTarget, ih named]
  | dictionary maps mapsToo ih ihToo =>
      rw [normalize, NormalType.ofTarget, ih named.key, ihToo named.value]
  | reference name kind =>
      have own := (named name (by simp [Source.TypeExpr.names])).2
      rw [normalize, NormalType.ofTarget, if_neg own, normalizeAll]
  | @generic name kind arguments types nonempty length maps ih =>
      have each := map_eq_map_of_getElem? length fun index argument type listed listedToo =>
        (ih index argument type listed listedToo
          (named.argument (List.mem_of_getElem? listed))).symm
      rw [normalize, NormalType.ofTarget, normalizeAll_eq_map, NormalType.ofTargets_eq_map, each]
  | typeParameter name =>
      have own := (named name (by simp [Source.TypeExpr.names])).2
      rw [normalize, NormalType.ofTarget, if_neg own]

/-- The text of a mapped type can be read. -/
theorem Maps.readable (maps : Maps dates source type) (named : source.IsWellNamed) :
    Readable type := by
  induction maps with
  | primitive known =>
      rcases target_of_primitive? known with ⟨builtIn, notNull, same⟩ | same
      · rw [same]
        exact .primitive notNull
      · rw [same]
        exact .reference ⟨by decide, by decide⟩
  | nullable plain maps ih => exact .nullable (ih named)
  | again maps ih => exact ih named
  | collection maps ih => exact .array (ih named)
  | dictionary maps mapsToo ih ihToo => exact .record (ih named.key) (ihToo named.value)
  | reference name kind => exact .reference (named name (List.mem_cons_self ..)).1
  | @generic name kind arguments types nonempty length maps ih =>
      refine .generic (named name (List.mem_cons_self ..)).1 ?_ ?_
      · rintro rfl
        exact nonempty (List.length_eq_zero_iff.mp length)
      · intro type member
        obtain ⟨index, listed⟩ := List.mem_iff_getElem?.mp member
        obtain ⟨inside, -⟩ := List.getElem?_eq_some_iff.mp listed
        have listedToo := List.getElem?_eq_getElem (length ▸ inside : index < arguments.length)
        exact ih index _ type listedToo listed (named.argument (List.mem_of_getElem? listedToo))
  | typeParameter name => exact .reference (named name (List.mem_singleton.mpr rfl)).1

variable {first second : Source.TypeExpr} {mapped mappedToo : Mapped Target.TypeExpr}

/-- Two mapped types read the same exactly if their sources have one normal form. In particular, at
whatever place a nullable collection stands in one source and a collection of nullable elements in
the other, their texts differ; and null is admitted at the places that are nullable in the source,
and at no other. -/
theorem text_eq_iff_normalize_eq (named : first.IsWellNamed) (namedToo : second.IsWellNamed)
    (found : mapType dates first = .ok mapped) (foundToo : mapType dates second = .ok mappedToo) :
    (mapped.type.text = mappedToo.type.text ↔ normalize dates first = normalize dates second) ∧
    (∀ place element inner, first.at? place = some (.nullable (.collection element)) →
      second.at? place = some (.collection (.nullable inner)) →
        mapped.type.text ≠ mappedToo.type.text) ∧
    ∀ place, (mapped.type.at? place).map Target.TypeExpr.isNullable =
      (first.at? place).map Source.TypeExpr.isNullable := by
  have maps := maps_of_mapType first found
  have mapsToo := maps_of_mapType second foundToo
  have unique : mapped.type.text = mappedToo.type.text → mapped.type = mappedToo.type :=
    (maps.readable named).eq_of_text_eq (mapsToo.readable namedToo)
  refine ⟨⟨fun same => ?_, fun same => ?_⟩, ?_, maps.isNullable_at?⟩
  · rw [← maps.ofTarget_eq named, ← mapsToo.ofTarget_eq namedToo, unique same]
  · rw [maps.eq_target, mapsToo.eq_target, same]
  · intro place element inner at' atToo same
    have nullable := maps.isNullable_at? place
    rw [unique same, mapsToo.isNullable_at? place, at', atToo] at nullable
    cases nullable

/-- To be nullable twice, and what kind of name a name is, cannot be told from the text. -/
theorem text_eq_of_twice_nullable :
    let first : Source.TypeExpr := .dictionary (.primitive "string")
      (.nullable (.nullable (.collection (.reference "Item" .model []))))
    let second : Source.TypeExpr := .dictionary (.primitive "System.Guid")
      (.nullable (.collection (.typeParameter "Item")))
    ∃ mapped mappedToo, mapType .date first = .ok mapped ∧ mapType .date second = .ok mappedToo ∧
      mapped.type.text = mappedToo.type.text ∧
      mapped.type.text = "Record<string, Item[] | null>" := by
  intro first second
  have known : primitive? "string" = some (.fixed .string) := by decide +kernel
  have knownToo : primitive? "System.Guid" = some (.fixed .string) := by decide +kernel
  let type : Target.TypeExpr :=
    .record (.primitive .string) (.union [.array (.reference "Item"), .null])
  have found : mapType .date first = .ok ⟨type, [⟨"Item", .model⟩]⟩ := by
    simp only [first, mapType, known]
    rfl
  have foundToo : mapType .date second = .ok ⟨type, []⟩ := by
    simp only [second, mapType, knownToo]
    rfl
  have own : Target.IsOwnName "Item" ∧ "Item" ≠ "Date" := ⟨⟨by decide, by decide⟩, by decide⟩
  have named : first.IsWellNamed := by
    simpa [Source.TypeExpr.IsWellNamed, Source.TypeExpr.names, Source.TypeExpr.namesOfAll, first]
      using own
  have namedToo : second.IsWellNamed := by
    simpa [Source.TypeExpr.IsWellNamed, Source.TypeExpr.names, second] using own
  have normal : normalize .date first = normalize .date second := by
    simp [first, second, normalize, known, knownToo, NormalType.orNull, normalizeAll]
  exact ⟨_, _, found, foundToo,
    (text_eq_iff_normalize_eq named namedToo found foundToo).1.mpr normal, by decide +kernel⟩

end Binding

end ApiBindings
