import ApiBindings.Json.Fields
import ApiBindings.Proofs.Fallible
import ApiBindings.Proofs.Json.Reading
import Mathlib.Data.List.Nodup

/-!
# Written records are read back

A record that was written has each of its fields once and under its own name, so each field is read
as the value it was written with, and what it has no member for is missing.  Lists and optional
values are read back if the values in them are.
-/

namespace ApiBindings.Json

/-! ## Making documents -/

@[simp] theorem text?_ofText (text : String) : (ofText text).text? = some text := by
  rw [ofText, text?, unspell?_spell, Option.map_some, String.ofList_toList]

theorem Written.ofText (text : String) : Written (ofText text) :=
  .string text.toList

theorem Written.ofText? (text : Option String) : Written (ofText? text) := by
  cases text with
  | none => exact .null
  | some text => exact .ofText text

theorem Written.ofMembers {members : List (String × Json)}
    (written : ∀ member ∈ members, Written member.2) : Written (ofMembers members) := by
  apply Written.object
  · intro spelled inside
    obtain ⟨member, -, rfl⟩ := List.mem_map.mp inside
    exact ⟨member.1.toList, rfl⟩
  · intro spelled inside
    obtain ⟨member, own, rfl⟩ := List.mem_map.mp inside
    exact written member own

theorem Written.map {α : Type} {values : List α} {write : α → Json}
    (written : ∀ value ∈ values, Written (write value)) : Written (.array (values.map write)) := by
  apply Written.array
  intro item inside
  obtain ⟨value, own, rfl⟩ := List.mem_map.mp inside
  exact written value own

theorem Written.isReadable {value : Json} (written : Written value) : value.isReadable = true := by
  induction written with
  | null => rfl
  | bool _ => rfl
  | string text => rw [Json.isReadable, unspell?_spell, Option.isSome_some]
  | @array items _ ih =>
      rw [Json.isReadable]
      clear * - ih
      induction items with
      | nil => rfl
      | cons item rest later =>
          rw [areItemsReadable, ih item List.mem_cons_self, Bool.true_and]
          exact later fun item inside => ih item (List.mem_cons_of_mem _ inside)
  | @object members keys _ ih =>
      rw [Json.isReadable]
      clear * - keys ih
      induction members with
      | nil => rfl
      | cons member rest later =>
          obtain ⟨key, value⟩ := member
          obtain ⟨name, rfl⟩ : ∃ name, key = spell name := keys _ List.mem_cons_self
          have own : value.isReadable = true := ih _ List.mem_cons_self
          rw [areMembersReadable, unspell?_spell, Option.isSome_some, own, Bool.true_and,
            Bool.true_and]
          exact later (fun member inside => keys member (List.mem_cons_of_mem _ inside))
            fun member inside => ih member (List.mem_cons_of_mem _ inside)

/-! ## Height -/

theorem height_lt_of_mem_array {items : List Json} {item : Json} (member : item ∈ items) :
    item.height < (Json.array items).height := by
  rw [height, Nat.lt_succ_iff]
  induction items with
  | nil => cases member
  | cons head rest ih =>
      rw [heightOfItems]
      cases member with
      | head => exact Nat.le_max_left _ _
      | tail _ later => exact Nat.le_trans (ih later) (Nat.le_max_right _ _)

theorem height_lt_of_mem_members {members : List (String × Json)} {member : String × Json}
    (inside : member ∈ members) : member.2.height < (ofMembers members).height := by
  rw [ofMembers, height, Nat.lt_succ_iff]
  induction members with
  | nil => cases inside
  | cons head rest ih =>
      rw [List.map_cons, heightOfMembers]
      cases inside with
      | head => exact Nat.le_max_left _ _
      | tail _ later => exact Nat.le_trans (ih later) (Nat.le_max_right _ _)

/-! ## Fields -/

theorem namedMembers?_spelled (members : List (String × Json)) :
    namedMembers? (members.map fun (key, value) => (spell key.toList, value)) = some members := by
  apply Option.mapM_map_eq_some
  intro member _
  simp [unspell?_spell]

theorem filter_of_not_mem {members : List (String × Json)} {name : String}
    (absent : name ∉ members.map (·.1)) : members.filter (·.1 == name) = [] := by
  rw [List.filter_eq_nil_iff]
  intro member inside same
  exact absent (List.mem_map.mpr ⟨member, inside, eq_of_beq same⟩)

theorem filter_of_mem {members : List (String × Json)} (distinct : (members.map (·.1)).Nodup)
    {member : String × Json} (inside : member ∈ members) :
    members.filter (·.1 == member.1) = [member] := by
  induction members with
  | nil => cases inside
  | cons head rest ih =>
      rw [List.map_cons, List.nodup_cons] at distinct
      cases inside with
      | head => rw [List.filter_cons, if_pos (beq_self_eq_true _), filter_of_not_mem distinct.1]
      | tail _ inRest =>
          have other : ¬ (head.1 == member.1) = true := by
            intro same
            apply distinct.1
            rw [eq_of_beq same]
            exact List.mem_map.mpr ⟨member, inRest, rfl⟩
          rw [List.filter_cons, if_neg other, ih distinct.2 inRest]

/-- The fields of a written record: those it has members for after some others, and missing ones. -/
theorem fields?_ofMembers (others members : List (String × Json)) (missing : List String)
    (distinct : ((others ++ members).map (·.1)).Nodup)
    (absent : ∀ name ∈ missing, name ∉ (others ++ members).map (·.1)) :
    (ofMembers (others ++ members)).fields? (members.map (·.1) ++ missing) =
      some (members.map (some ·.2) ++ missing.map fun _ => none) := by
  have there : (members.map (·.1)).mapM (uniqueField? (others ++ members)) =
      some (members.map (some ·.2)) := by
    rw [List.mapM_map]
    apply Option.mapM_eq_some
    intro member inside
    rw [Function.comp_apply, uniqueField?, filter_of_mem distinct (List.mem_append_right _ inside)]
  have unknown : missing.mapM (uniqueField? (others ++ members)) =
      some (missing.map fun _ => none) := by
    apply Option.mapM_eq_some
    intro name inside
    rw [uniqueField?, filter_of_not_mem (absent name inside)]
  rw [ofMembers, fields?, namedMembers?_spelled, Option.bind_eq_bind, Option.bind_some,
    objectFields?, List.mapM_append, there, unknown]
  rfl

/-- An object takes a level of the limit, which leaves fewer for its members. -/
theorem exists_inside {members : List (String × Json)} {levels : Nat}
    (fits : (ofMembers members).height ≤ levels) :
    ∃ inside, levels = inside + 1 ∧ ∀ member ∈ members, member.2.height ≤ inside := by
  cases levels with
  | zero => cases fits
  | succ inside =>
      refine ⟨inside, rfl, ?_⟩
      intro member own
      exact Nat.le_of_lt_succ (Nat.lt_of_lt_of_le (height_lt_of_mem_members own) fits)

theorem record?_ofMembers {members : List (String × Json)}
    (distinct : (members.map (·.1)).Nodup) {levels : Nat}
    (fits : (ofMembers members).height ≤ levels) :
    ∃ inside, (ofMembers members).record? levels (members.map (·.1)) =
        some (inside, members.map (some ·.2)) ∧ ∀ member ∈ members, member.2.height ≤ inside := by
  obtain ⟨inside, rfl, lower⟩ := exists_inside fits
  have read := fields?_ofMembers [] members [] distinct (by simp)
  simp only [List.nil_append, List.append_nil, List.map_nil] at read
  refine ⟨inside, ?_, lower⟩
  rw [record?, read, Option.map_some]

@[simp] theorem choice?_ofText (levels : Nat) (isNothing : Json → Bool) (text : String) :
    choice? levels isNothing (ofText text) = some text :=
  text?_ofText text

/-! ## Reading what was written -/

/-- What is written is read back, as long as its containers nest no deeper than the limit. -/
def RoundTrips {α : Type} (read? : Nat → Json → Option α) (write : α → Json) : Prop :=
  ∀ value levels, (write value).height ≤ levels → read? levels (write value) = some value

theorem RoundTrips.list? {α : Type} {read? : Nat → Json → Option α} {write : α → Json}
    (trips : RoundTrips read? write) (values : List α) {levels : Nat}
    (fits : (Json.array (values.map write)).height ≤ levels) :
    list? levels read? (some (.array (values.map write))) = some values := by
  cases levels with
  | zero => cases fits
  | succ inside =>
      apply Option.mapM_map_eq_some
      intro value member
      apply trips
      have lower : (write value).height < (Json.array (values.map write)).height :=
        height_lt_of_mem_array (List.mem_map_of_mem member)
      exact Nat.le_of_lt_succ (Nat.lt_of_lt_of_le lower fits)

@[simp] theorem optional?_ofText? (text : Option String) :
    optional? text? (some (ofText? text)) = some text := by
  cases text with
  | none => rfl
  | some text =>
      have read := congrArg (Option.map some) (text?_ofText text)
      exact read

theorem RoundTrips.optional? {α : Type} {read? : Nat → Json → Option α} {write : α → Json}
    (trips : RoundTrips read? write) (noNull : ∀ value, write value ≠ .null) (value : Option α)
    {levels : Nat} (fits : ((value.map write).getD .null).height ≤ levels) :
    optional? (read? levels) (some ((value.map write).getD .null)) = some value := by
  cases value with
  | none => rfl
  | some value =>
      have read := trips value levels fits
      rw [Option.map_some, Option.getD_some, Json.optional?, read]
      · rfl
      · exact noNull value

end ApiBindings.Json
