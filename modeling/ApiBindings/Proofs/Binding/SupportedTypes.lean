import ApiBindings.Binding.TypeMapping
import ApiBindings.Proofs.Fallible
import Mathlib.Data.List.Basic

/-!
# Supported types

A type is mapped exactly if each of its parts has a counterpart, however deep the part stands.  Its
parts are looked at from left to right, a type before what is in it: in this order a mapped type
lists what it refers to, and the first part without a counterpart is the one that is reported.  What
dates become has no say in either.
-/

namespace ApiBindings

namespace Source.TypeExpr

mutual

/-- A type and the types in it, from left to right, each before what is in it. -/
def preorder : TypeExpr → List TypeExpr
  | .primitive name => [.primitive name]
  | .nullable inner => .nullable inner :: inner.preorder
  | .collection element => .collection element :: element.preorder
  | .dictionary key value => .dictionary key value :: (key.preorder ++ value.preorder)
  | .reference name kind arguments => .reference name kind arguments :: preorderOfAll arguments
  | .typeParameter name => [.typeParameter name]
  | .unknown => [.unknown]

/-- Several types and the types in them. -/
def preorderOfAll : List TypeExpr → List TypeExpr
  | [] => []
  | type :: rest => type.preorder ++ preorderOfAll rest

end

/-- What a type itself refers to, its arguments aside. -/
def reference? : TypeExpr → Option TypeReference
  | .reference name kind _ => some ⟨name, kind⟩
  | _ => none

end Source.TypeExpr

namespace Binding

open Source (TypeExpr TypeReference)

/-! ## Built-in types -/

/-- A name that the table of built-in types has, with the namespace in front or without. -/
def IsBuiltIn (name : String) : Prop :=
  ∃ entry ∈ primitiveTable, name = entry.1 ∨ name = "System." ++ entry.1

theorem withoutNamespace_append (name : String) : withoutNamespace ("System." ++ name) = name := by
  have spaced : "System.".toList.isPrefixOf ("System." ++ name).toList = true := by
    rw [String.toList_append]
    exact List.isPrefixOf_iff_prefix.mpr (List.prefix_append _ _)
  refine (if_pos spaced).trans ?_
  rw [String.toList_append, List.drop_left, String.ofList_toList]

theorem withoutNamespace_of_not_isPrefixOf {name : String}
    (bare : "System.".toList.isPrefixOf name.toList = false) : withoutNamespace name = name :=
  if_neg (ne_true_of_eq_false bare)

theorem withoutNamespace_eq_iff {name key : String}
    (bare : "System.".toList.isPrefixOf key.toList = false) :
    withoutNamespace name = key ↔ name = key ∨ name = "System." ++ key := by
  constructor
  · rintro rfl
    cases spaced : "System.".toList.isPrefixOf name.toList with
    | false => exact .inl (withoutNamespace_of_not_isPrefixOf spaced).symm
    | true =>
        obtain ⟨rest, spelled⟩ := List.isPrefixOf_iff_prefix.mp spaced
        have same : name = "System." ++ String.ofList rest :=
          String.toList_inj.mp (by simpa using spelled.symm)
        rw [same, withoutNamespace_append]
        exact .inr rfl
  · rintro (rfl | rfl)
    · exact withoutNamespace_of_not_isPrefixOf bare
    · exact withoutNamespace_append key

theorem primitive?_isSome_iff {name : String} : (primitive? name).isSome ↔ IsBuiltIn name := by
  have bare : ∀ entry ∈ primitiveTable,
      "System.".toList.isPrefixOf entry.1.toList = false := by
    decide
  have listed : (primitive? name).isSome ↔
      ∃ entry ∈ primitiveTable, withoutNamespace name = entry.1 := by
    cases found : primitive? name with
    | none =>
        have missing := List.lookup_eq_none_iff.mp found
        simp only [bne_iff_ne] at missing
        simpa only [Option.isSome_none, Bool.false_eq_true, false_iff, not_exists, not_and]
    | some mapping =>
        obtain ⟨before, after, split, -⟩ := List.lookup_eq_some_iff.mp found
        simp only [Option.isSome_some, true_iff]
        exact ⟨(withoutNamespace name, mapping), by simp [split], rfl⟩
  rw [listed]
  exact exists_congr fun entry => and_congr_right fun member =>
    withoutNamespace_eq_iff (bare entry member)

/-! ## Parts without a counterpart -/

/-- A type that has no counterpart whatever is in it, and how it is described. -/
inductive IsUnsupported : TypeExpr → String → Prop where
  | primitive {name : String} (unlisted : ¬ IsBuiltIn name) :
      IsUnsupported (.primitive name) ("primitive " ++ name)
  | unknown : IsUnsupported .unknown "<unknown>"

/-- A type that is not to blame if it has no counterpart. -/
def IsSupported (part : TypeExpr) : Prop :=
  ∀ description, ¬ IsUnsupported part description

/-- The description of a type without a counterpart. -/
def unsupported? : TypeExpr → Option String
  | .primitive name => if (primitive? name).isSome then none else some ("primitive " ++ name)
  | .unknown => some TypeExpr.unknown.display
  | _ => none

theorem unsupported?_eq_some_iff {part : TypeExpr} {description : String} :
    unsupported? part = some description ↔ IsUnsupported part description := by
  constructor
  · intro found
    cases part with
    | primitive name =>
        rw [unsupported?] at found
        split at found
        · cases found
        · rename_i unlisted
          cases found
          exact .primitive (mt primitive?_isSome_iff.mpr unlisted)
    | unknown =>
        cases found
        exact .unknown
    | _ => cases found
  · intro unsupported
    cases unsupported with
    | primitive unlisted => exact if_neg (mt primitive?_isSome_iff.mp unlisted)
    | unknown => rfl

theorem unsupported?_eq_none_iff {part : TypeExpr} :
    unsupported? part = none ↔ IsSupported part := by
  simp only [Option.eq_none_iff_forall_ne_some, ne_eq, unsupported?_eq_some_iff, IsSupported]

/-! ## Looking at the parts of a type -/

/-- What comes of looking at types one after the other: the first without a counterpart is a fault,
and otherwise what they refer to is collected. -/
def survey (parts : List TypeExpr) : Except BindError (List TypeReference) :=
  match parts.findSome? unsupported? with
  | some description => .error (.unsupportedKind description)
  | none => .ok (parts.filterMap TypeExpr.reference?)

theorem survey_cons {part : TypeExpr} (supported : unsupported? part = none)
    (rest : List TypeExpr) :
    survey (part :: rest) = (survey rest).map (part.reference?.toList ++ ·) := by
  simp only [survey, List.findSome?_cons, supported]
  cases rest.findSome? unsupported? with
  | some description => rfl
  | none => cases named : part.reference? <;> simp [Except.map, named]

theorem survey_append (first second : List TypeExpr) :
    survey (first ++ second) = do return (← survey first) ++ (← survey second) := by
  simp only [survey, List.findSome?_append, List.filterMap_append]
  cases first.findSome? unsupported? with
  | some description => rfl
  | none => cases second.findSome? unsupported? <;> rfl

variable {dates : DateMapping}

mutual

/-- Mapping a type fails and collects as a look at its parts does. -/
theorem references_mapType : (type : TypeExpr) →
    (mapType dates type).map (·.references) = survey type.preorder := by
  intro type
  cases type with
  | primitive name =>
      rw [mapType]
      cases known : primitive? name <;> simp [survey, TypeExpr.preorder, unsupported?, known] <;> rfl
  | nullable inner =>
      rw [mapType, TypeExpr.preorder, survey_cons rfl, ← references_mapType inner]
      cases mapType dates inner <;> rfl
  | collection element =>
      rw [mapType, TypeExpr.preorder, survey_cons rfl, ← references_mapType element]
      cases mapType dates element <;> rfl
  | dictionary key value =>
      rw [mapType, TypeExpr.preorder, survey_cons rfl, survey_append, ← references_mapType key,
        ← references_mapType value]
      cases mapType dates key with
      | error error => rfl
      | ok key => cases mapType dates value <;> rfl
  | reference name kind arguments =>
      rw [TypeExpr.preorder, survey_cons rfl]
      cases arguments with
      | nil => rfl
      | cons argument rest =>
          rw [mapType, TypeExpr.preorderOfAll, survey_append, ← references_mapType argument,
            ← references_mapTypes rest]
          cases mapType dates argument with
          | error error => rfl
          | ok argument => cases mapTypes dates rest <;> rfl
  | typeParameter name => rfl
  | unknown => rfl

theorem references_mapTypes : (types : List TypeExpr) →
    (mapTypes dates types).map (·.references) = survey (TypeExpr.preorderOfAll types) := by
  intro types
  cases types with
  | nil => rfl
  | cons type rest =>
      rw [mapTypes, TypeExpr.preorderOfAll, survey_append, ← references_mapType type,
        ← references_mapTypes rest]
      cases mapType dates type with
      | error error => rfl
      | ok type => cases mapTypes dates rest <;> rfl

end

theorem survey_eq_ok_iff {parts : List TypeExpr} {references : List TypeReference} :
    survey parts = .ok references ↔
      (∀ part ∈ parts, IsSupported part) ∧
        parts.filterMap TypeExpr.reference? = references := by
  simp only [← unsupported?_eq_none_iff, ← List.findSome?_eq_none_iff, survey]
  cases parts.findSome? unsupported? <;> simp

theorem survey_eq_error_iff {parts : List TypeExpr} {error : BindError} :
    survey parts = .error error ↔ ∃ description, error = .unsupportedKind description ∧
      ∃ before part after, parts = before ++ part :: after ∧ IsUnsupported part description ∧
        ∀ earlier ∈ before, IsSupported earlier := by
  simp only [← unsupported?_eq_none_iff, ← unsupported?_eq_some_iff, ← List.findSome?_eq_some_iff,
    survey]
  cases parts.findSome? unsupported? <;> simp [eq_comm]

/-! ## Mapping -/

variable {type : TypeExpr} {mapped : Mapped Target.TypeExpr}

/-- A mapped type comes with what the parts of its source refer to. -/
theorem references_of_mapType (found : mapType dates type = .ok mapped) :
    mapped.references = type.preorder.filterMap TypeExpr.reference? := by
  have surveyed : (mapType dates type).map (·.references) = survey type.preorder :=
    references_mapType type
  rw [found] at surveyed
  exact (survey_eq_ok_iff.mp surveyed.symm).2.symm

/-- A type fails to be mapped because of its first part that is not supported. -/
theorem mapType_eq_error_iff {error : BindError} : mapType dates type = .error error ↔
    ∃ description, error = .unsupportedKind description ∧
      ∃ before part after, type.preorder = before ++ part :: after ∧
        IsUnsupported part description ∧ ∀ earlier ∈ before, IsSupported earlier := by
  have surveyed : (mapType dates type).map (·.references) = survey type.preorder :=
    references_mapType type
  rw [← survey_eq_error_iff, ← surveyed, Except.map_eq_error_iff]

theorem exists_mapType_iff : (∃ mapped, mapType dates type = .ok mapped) ↔
    ∀ part ∈ type.preorder, IsSupported part := by
  have surveyed : (mapType dates type).map (·.references) = survey type.preorder :=
    references_mapType type
  constructor
  · rintro ⟨mapped, found⟩
    rw [found] at surveyed
    exact (survey_eq_ok_iff.mp surveyed.symm).1
  · intro supported
    have collected := survey_eq_ok_iff.mpr ⟨supported, rfl⟩
    rw [← surveyed] at collected
    obtain ⟨mapped, found, -⟩ := Except.map_eq_ok_iff.mp collected
    exact ⟨mapped, found⟩

/-- A type is mapped exactly if all its parts are supported.  It then comes with what its parts
refer to, in their order and as often as they do; otherwise the first part that is not supported is
reported.  The choice for dates changes neither. -/
theorem mapType_covers (dates : DateMapping) (type : TypeExpr) :
    ((∃ mapped, mapType dates type = .ok mapped) ↔
      ∀ part ∈ type.preorder, IsSupported part) ∧
    (∀ mapped, mapType dates type = .ok mapped →
      mapped.references = type.preorder.filterMap TypeExpr.reference?) ∧
    (∀ error, mapType dates type = .error error ↔ ∃ description,
      error = .unsupportedKind description ∧
        ∃ before part after, type.preorder = before ++ part :: after ∧
          IsUnsupported part description ∧ ∀ earlier ∈ before, IsSupported earlier) ∧
    ∀ other : DateMapping,
      (mapType other type).map (·.references) = (mapType dates type).map (·.references) := by
  refine ⟨exists_mapType_iff, fun _ => references_of_mapType, fun _ => mapType_eq_error_iff, ?_⟩
  intro other
  rw [references_mapType, references_mapType]

theorem mapType_covers_page :
    let pages : TypeExpr := .dictionary (.primitive "System.Guid") (.nullable (.collection
      (.reference "Page" .model [.reference "Status" .enum [.typeParameter "T"],
        .primitive "DateTime", .reference "Page" .model []])))
    let broken : TypeExpr :=
      .nullable (.reference "Page" .model [.primitive "System.System.int", .unknown])
    (∃ mapped, mapType .string pages = .ok mapped ∧
      (∀ part ∈ pages.preorder, IsSupported part) ∧
      mapped.references = [⟨"Page", .model⟩, ⟨"Status", .enum⟩, ⟨"Page", .model⟩]) ∧
    mapType .string broken = .error (.unsupportedKind "primitive System.System.int") ∧
    ∃ before part after, broken.preorder = before ++ part :: after ∧
      IsUnsupported part "primitive System.System.int" ∧
      ∀ earlier ∈ before, IsSupported earlier := by
  intro pages broken
  have evaluated : (mapType .string pages).map (·.references) =
      .ok [⟨"Page", .model⟩, ⟨"Status", .enum⟩, ⟨"Page", .model⟩] := by
    decide +kernel
  have refused : (mapType .string broken).map (·.references) =
      .error (.unsupportedKind "primitive System.System.int") := by
    decide +kernel
  obtain ⟨mapped, found, -⟩ := Except.map_eq_ok_iff.mp evaluated
  obtain ⟨accepted, collects, -⟩ := mapType_covers .string pages
  have failed := Except.map_eq_error_iff.mp refused
  obtain ⟨description, same, first⟩ := ((mapType_covers .string broken).2.2.1 _).mp failed
  cases same
  exact ⟨⟨mapped, found, accepted.mp ⟨mapped, found⟩, collects mapped found⟩, failed, first⟩

end Binding

end ApiBindings
