import ApiBindings.Binding.TypeMapping
import ApiBindings.Proofs.Fallible

/-!
# Mapped types and their parts

What mapping makes of each kind of type, as rules.  The one rule that looks at its result is that
for nullable types: it adds `null` exactly if the type did not admit it, which is to say exactly if
the type in it is no nullable type again.  So a mapped type has the same parts as its source, one in
the place of the other, and admits `null` at the same places.
-/

namespace ApiBindings

/-- A way from a type to a part of it. -/
inductive TypeStep where
  | element
  | key
  | value
  | argument (index : Nat)
  deriving Repr, DecidableEq

namespace Source.TypeExpr

/-- Whether a type is declared as nullable. -/
def isNullable : TypeExpr → Bool
  | .nullable _ => true
  | _ => false

/-- A part of a type. To be nullable does not make another part. -/
def part? : TypeExpr → TypeStep → Option TypeExpr
  | .nullable inner, step => inner.part? step
  | .collection element, .element => some element
  | .dictionary key _, .key => some key
  | .dictionary _ value, .value => some value
  | .reference _ _ arguments, .argument index => arguments[index]?
  | _, _ => none

/-- What is at a place in a type, with all that makes it nullable. -/
def at? (type : TypeExpr) : List TypeStep → Option TypeExpr
  | [] => some type
  | step :: rest => (type.part? step).bind (·.at? rest)

end Source.TypeExpr

namespace Target.TypeExpr

/-- A type without the `null` that was added to it. -/
def bare : TypeExpr → TypeExpr
  | .union [type, .primitive .null] => type
  | type => type

/-- A part of a type. -/
def part? (type : TypeExpr) (step : TypeStep) : Option TypeExpr :=
  match type.bare, step with
  | .array element, .element => some element
  | .record key _, .key => some key
  | .record _ value, .value => some value
  | .generic _ arguments, .argument index => arguments[index]?
  | _, _ => none

/-- What is at a place in a type. -/
def at? (type : TypeExpr) : List TypeStep → Option TypeExpr
  | [] => some type
  | step :: rest => (type.part? step).bind (·.at? rest)

end Target.TypeExpr

namespace Binding

/-- What mapping makes of a type. -/
inductive Maps (dates : DateMapping) : Source.TypeExpr → Target.TypeExpr → Prop where
  | primitive {name : String} {mapping : PrimitiveMapping}
      (known : primitive? name = some mapping) : Maps dates (.primitive name) (mapping.target dates)
  | nullable {inner : Source.TypeExpr} {type : Target.TypeExpr} (plain : inner.isNullable = false)
      (maps : Maps dates inner type) : Maps dates (.nullable inner) (.union [type, .null])
  /-- A type that is nullable twice is nullable. -/
  | again {inner : Source.TypeExpr} {type : Target.TypeExpr}
      (maps : Maps dates (.nullable inner) type) : Maps dates (.nullable (.nullable inner)) type
  | collection {element : Source.TypeExpr} {type : Target.TypeExpr}
      (maps : Maps dates element type) : Maps dates (.collection element) (.array type)
  | dictionary {key value : Source.TypeExpr} {keyType valueType : Target.TypeExpr}
      (maps : Maps dates key keyType) (mapsToo : Maps dates value valueType) :
      Maps dates (.dictionary key value) (.record keyType valueType)
  | reference (name : String) (kind : Source.DependencyKind) :
      Maps dates (.reference name kind []) (.reference name)
  | generic (name : String) (kind : Source.DependencyKind) {arguments : List Source.TypeExpr}
      {types : List Target.TypeExpr} (nonempty : arguments ≠ [])
      (length : arguments.length = types.length)
      (maps : ∀ (index : Nat) argument type, arguments[index]? = some argument →
        types[index]? = some type → Maps dates argument type) :
      Maps dates (.reference name kind arguments) (.generic name types)
  | typeParameter (name : String) : Maps dates (.typeParameter name) (.reference name)

variable {dates : DateMapping} {source : Source.TypeExpr} {type : Target.TypeExpr}

/-! ## Built-in types -/

/-- A built-in type of the source becomes one of the target other than `null`, or `Date`. -/
theorem target_of_primitive? {name : String} {mapping : PrimitiveMapping}
    (known : primitive? name = some mapping) :
    (∃ builtIn, builtIn ≠ .null ∧ mapping.target dates = .primitive builtIn) ∨
      mapping.target dates = .reference "Date" := by
  have fixed : ∀ entry ∈ primitiveTable, entry.2 ≠ .fixed .null := by decide
  obtain ⟨before, after, split, -⟩ := List.lookup_eq_some_iff.mp known
  have member : (withoutNamespace name, mapping) ∈ primitiveTable := by simp [split]
  cases mapping with
  | fixed builtIn => exact .inl ⟨builtIn, fun null => fixed _ member (by rw [null]), rfl⟩
  | date =>
      cases dates with
      | date => exact .inr rfl
      | string => exact .inl ⟨.string, by decide, rfl⟩

/-! ## Nullable types -/

/-- A mapped type admits `null` exactly if its source is nullable, and it is a union only then. -/
theorem Maps.isNullable_eq (maps : Maps dates source type) :
    type.isNullable = source.isNullable ∧ type.isUnion = source.isNullable := by
  induction maps with
  | primitive known =>
      rcases target_of_primitive? known with ⟨builtIn, notNull, same⟩ | same
      · rw [same]
        cases builtIn <;> first | contradiction | exact ⟨rfl, rfl⟩
      · rw [same]
        exact ⟨rfl, rfl⟩
  | nullable => simp [Source.TypeExpr.isNullable, Target.TypeExpr.isNullable,
      Target.TypeExpr.anyNullable, Target.TypeExpr.null, Target.TypeExpr.isUnion]
  | again maps ih => exact ih
  | collection => exact ⟨rfl, rfl⟩
  | dictionary => exact ⟨rfl, rfl⟩
  | reference => exact ⟨rfl, rfl⟩
  | generic => exact ⟨rfl, rfl⟩
  | typeParameter => exact ⟨rfl, rfl⟩

theorem orNull_of_isNullable (nullable : type.isNullable = true) : type.orNull = type := by
  simp [Target.TypeExpr.orNull, nullable]

theorem orNull_of_not_isNullable (plain : type.isNullable = false) (single : type.isUnion = false) :
    type.orNull = .union [type, .null] := by
  cases type <;> simp_all [Target.TypeExpr.orNull, Target.TypeExpr.isUnion]

/-! ## The mapping -/

/-- A nullable type, from what is made of the type in it. -/
theorem Maps.orNull (maps : Maps dates source type) :
    Maps dates (.nullable source) type.orNull := by
  obtain ⟨nullable, union⟩ := maps.isNullable_eq
  cases source with
  | nullable inner =>
      rw [orNull_of_isNullable nullable]
      exact .again maps
  | _ =>
      rw [orNull_of_not_isNullable nullable union]
      exact .nullable rfl maps

theorem maps_cons {sources : List Source.TypeExpr} {types : List Target.TypeExpr}
    (maps : Maps dates source type)
    (mapsRest : ∀ (index : Nat) source type, sources[index]? = some source →
      types[index]? = some type → Maps dates source type) (index : Nat) :
    ∀ other otherType, (source :: sources)[index]? = some other →
      (type :: types)[index]? = some otherType → Maps dates other otherType := by
  intro other otherType listed listedToo
  cases index with
  | zero =>
      cases listed
      cases listedToo
      exact maps
  | succ index => exact mapsRest index other otherType listed listedToo

mutual

/-- The mapping goes by the rules. -/
theorem maps_of_mapType : (source : Source.TypeExpr) → {mapped : Mapped Target.TypeExpr} →
    mapType dates source = .ok mapped → Maps dates source mapped.type := by
  intro source mapped found
  cases source with
  | primitive name =>
      unfold mapType at found
      split at found
      · rename_i known
        cases found
        exact .primitive known
      · cases found
  | nullable inner =>
      obtain ⟨result, mappedInner, done⟩ := Except.bind_eq_ok_iff.mp found
      cases done
      exact (maps_of_mapType inner mappedInner).orNull
  | collection element =>
      obtain ⟨result, mappedElement, done⟩ := Except.bind_eq_ok_iff.mp found
      cases done
      exact .collection (maps_of_mapType element mappedElement)
  | dictionary key value =>
      obtain ⟨first, mappedKey, found⟩ := Except.bind_eq_ok_iff.mp found
      obtain ⟨second, mappedValue, done⟩ := Except.bind_eq_ok_iff.mp found
      cases done
      exact .dictionary (maps_of_mapType key mappedKey) (maps_of_mapType value mappedValue)
  | reference name kind arguments =>
      cases arguments with
      | nil =>
          cases found
          exact .reference name kind
      | cons argument rest =>
          obtain ⟨first, mappedFirst, found⟩ := Except.bind_eq_ok_iff.mp found
          obtain ⟨others, mappedRest, done⟩ := Except.bind_eq_ok_iff.mp found
          cases done
          obtain ⟨length, maps⟩ := maps_of_mapTypes rest mappedRest
          exact .generic name kind (List.cons_ne_nil argument rest) (by simp [length])
            (maps_cons (maps_of_mapType argument mappedFirst) maps)
  | typeParameter name =>
      cases found
      exact .typeParameter name
  | unknown => cases found

theorem maps_of_mapTypes : (sources : List Source.TypeExpr) →
    {mapped : Mapped (List Target.TypeExpr)} → mapTypes dates sources = .ok mapped →
      sources.length = mapped.type.length ∧
        ∀ (index : Nat) source type, sources[index]? = some source →
          mapped.type[index]? = some type → Maps dates source type := by
  intro sources mapped found
  cases sources with
  | nil =>
      cases found
      simp
  | cons source rest =>
      obtain ⟨first, mappedFirst, found⟩ := Except.bind_eq_ok_iff.mp found
      obtain ⟨others, mappedRest, done⟩ := Except.bind_eq_ok_iff.mp found
      cases done
      obtain ⟨length, maps⟩ := maps_of_mapTypes rest mappedRest
      exact ⟨by simp [length], maps_cons (maps_of_mapType source mappedFirst) maps⟩

end

/-! ## Parts -/

theorem part?_nullable (plain : type.isUnion = false) (step : TypeStep) :
    (Target.TypeExpr.union [type, .null]).part? step = type.part? step := by
  have bare : type.bare = type := by
    unfold Target.TypeExpr.bare
    split
    · cases plain
    · rfl
  have bareToo : (Target.TypeExpr.union [type, .null]).bare = type := rfl
  unfold Target.TypeExpr.part?
  rw [bare, bareToo]

/-- The parts of a mapped type are made of the parts of its source. -/
theorem Maps.part? (maps : Maps dates source type) (step : TypeStep) :
    Option.Rel (Maps dates) (source.part? step) (type.part? step) := by
  induction maps with
  | primitive known =>
      rcases target_of_primitive? known with ⟨builtIn, -, same⟩ | same
      · rw [same]
        exact .none
      · rw [same]
        exact .none
  | nullable plain maps ih =>
      rw [part?_nullable (maps.isNullable_eq.2.trans plain)]
      exact ih
  | again maps ih => exact ih
  | collection maps =>
      cases step with
      | element => exact .some maps
      | _ => exact .none
  | dictionary maps mapsToo =>
      cases step with
      | key => exact .some maps
      | value => exact .some mapsToo
      | _ => exact .none
  | reference name kind => cases step <;> exact .none
  | @generic name kind arguments types nonempty length maps =>
      cases step with
      | argument index =>
          show Option.Rel (Maps dates) arguments[index]? types[index]?
          cases listed : arguments[index]? with
          | none =>
              have none : types[index]? = none := by
                rw [List.getElem?_eq_none_iff] at listed ⊢
                omega
              rw [none]
              exact .none
          | some argument =>
              obtain ⟨inside, -⟩ := List.getElem?_eq_some_iff.mp listed
              have listedToo := List.getElem?_eq_getElem (length ▸ inside)
              rw [listedToo]
              exact .some (maps index argument _ listed listedToo)
      | _ => exact .none
  | typeParameter name => cases step <;> exact .none

/-- What is at a place in a mapped type is made of what is there in its source. -/
theorem Maps.at? (maps : Maps dates source type) (place : List TypeStep) :
    Option.Rel (Maps dates) (source.at? place) (type.at? place) := by
  induction place generalizing source type with
  | nil => exact .some maps
  | cons step rest ih =>
      have parts := maps.part? step
      rw [Source.TypeExpr.at?, Target.TypeExpr.at?]
      cases part : source.part? step <;> cases typePart : type.part? step <;>
        rw [part, typePart] at parts <;> cases parts
      · exact .none
      · rename_i inside
        exact ih inside

/-- A mapped type admits `null` at the places where its source is nullable. -/
theorem Maps.isNullable_at? (maps : Maps dates source type) (place : List TypeStep) :
    (type.at? place).map Target.TypeExpr.isNullable =
      (source.at? place).map Source.TypeExpr.isNullable := by
  have parts := maps.at? place
  cases found : source.at? place <;> cases foundToo : type.at? place <;>
    rw [found, foundToo] at parts <;> cases parts
  · rfl
  · rename_i inside
    simp [inside.isNullable_eq.1]

end Binding

end ApiBindings
