import ApiBindings.Target.Declaration
import Mathlib.Data.List.Nodup
import Mathlib.Tactic.Tauto

/-!
# Lists of imports

An import set keeps one entry a module and each name once in an entry.  Adding an import adds its
names under its module and nothing else, and leaves the entries of other modules where they are.
-/

namespace ApiBindings.Target

/-! ## Names -/

theorem mem_addNames {names new : List String} {name : String} :
    name ∈ addNames names new ↔ name ∈ names ∨ name ∈ new := by
  induction new generalizing names with
  | nil => simp [addNames]
  | cons first rest ih =>
      have step : addNames names (first :: rest) =
          addNames (if names.contains first then names else names ++ [first]) rest := rfl
      rw [step, ih]
      by_cases known : first ∈ names
      · have kept : name = first → name ∈ names := by
          rintro rfl
          exact known
        simp only [List.contains_eq_mem, known, decide_true, if_true, List.mem_cons]
        tauto
      · simp [known, or_assoc]

theorem nodup_addNames {names : List String} (distinct : names.Nodup) (new : List String) :
    (addNames names new).Nodup := by
  induction new generalizing names with
  | nil => exact distinct
  | cons first rest ih =>
      have step : addNames names (first :: rest) =
          addNames (if names.contains first then names else names ++ [first]) rest := rfl
      rw [step]
      apply ih
      split
      · exact distinct
      · rename_i fresh
        rw [List.contains_eq_mem, decide_eq_true_eq] at fresh
        rw [← List.concat_eq_append]
        exact distinct.concat fresh

/-! ## Entries -/

/-- Some entry for a module has a name. -/
def Provides (entries : List Import) (path name : String) : Prop :=
  ∃ entry ∈ entries, entry.path = path ∧ name ∈ entry.names

@[simp] theorem not_provides_nil (path name : String) : ¬ Provides [] path name := by
  rintro ⟨entry, member, -⟩
  simp at member

@[simp] theorem provides_cons {entry : Import} {rest : List Import} {path name : String} :
    Provides (entry :: rest) path name ↔
      entry.path = path ∧ name ∈ entry.names ∨ Provides rest path name := by
  simp [Provides]

/-- One entry a module, and each name once in an entry. -/
structure Tidy (entries : List Import) : Prop where
  paths : (entries.map (·.path)).Nodup
  names : ∀ entry ∈ entries, entry.names.Nodup

namespace ImportSet

theorem mem_paths_insertInto {new : Import} {entries : List Import} {path : String} :
    path ∈ (insertInto new entries).map (·.path) ↔
      path ∈ entries.map (·.path) ∨ path = new.path := by
  induction entries with
  | nil => simp [insertInto]
  | cons entry rest ih =>
      rw [insertInto]
      by_cases same : entry.path = new.path
      · simp only [same, beq_self_eq_true, if_true, List.map_cons, List.mem_cons]
        tauto
      · simp only [same, beq_iff_eq, if_false, List.map_cons, List.mem_cons, ih]
        tauto

theorem tidy_insertInto {entries : List Import} (tidy : Tidy entries) (new : Import) :
    Tidy (insertInto new entries) := by
  induction entries with
  | nil =>
      refine ⟨by simp [insertInto], ?_⟩
      intro entry member
      rw [insertInto, List.mem_singleton] at member
      subst member
      exact nodup_addNames List.nodup_nil new.names
  | cons entry rest ih =>
      obtain ⟨paths, names⟩ := tidy
      rw [List.map_cons, List.nodup_cons] at paths
      rw [List.forall_mem_cons] at names
      rw [insertInto]
      split
      · refine ⟨by simpa using paths, ?_⟩
        rw [List.forall_mem_cons]
        exact ⟨nodup_addNames names.1 new.names, names.2⟩
      · rename_i apart
        rw [beq_iff_eq] at apart
        obtain ⟨restPaths, restNames⟩ := ih ⟨paths.2, names.2⟩
        refine ⟨?_, List.forall_mem_cons.mpr ⟨names.1, restNames⟩⟩
        rw [List.map_cons, List.nodup_cons, mem_paths_insertInto, not_or]
        exact ⟨⟨paths.1, apart⟩, restPaths⟩

theorem provides_insertInto {new : Import} {entries : List Import} {path name : String} :
    Provides (insertInto new entries) path name ↔
      Provides entries path name ∨ new.path = path ∧ name ∈ new.names := by
  induction entries with
  | nil => simp [insertInto, mem_addNames]
  | cons entry rest ih =>
      rw [insertInto]
      split
      · rename_i same
        rw [beq_iff_eq] at same
        simp only [provides_cons, mem_addNames, same]
        tauto
      · simp only [provides_cons, ih]
        tauto

/-- Entries in front stay as they are while imports of other modules are added. -/
theorem isPrefix_insertInto {given entries : List Import} {new : Import}
    (others : new.path ∉ given.map (·.path)) (front : given <+: entries) :
    given <+: insertInto new entries := by
  obtain ⟨rest, rfl⟩ := front
  induction given with
  | nil => exact List.nil_prefix
  | cons entry given ih =>
      simp only [List.map_cons, List.mem_cons, not_or] at others
      have apart : (entry.path == new.path) = false := by simp [Ne.symm others.1]
      simp only [List.cons_append, insertInto, apart, Bool.false_eq_true, if_false]
      exact List.cons_prefix_cons.mpr ⟨rfl, ih others.2⟩

end ImportSet

end ApiBindings.Target
