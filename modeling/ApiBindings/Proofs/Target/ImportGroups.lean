import ApiBindings.Proofs.Target.ImportSet
import Mathlib.Data.Finset.Card
import Mathlib.Data.List.Forall2

/-!
# Import sets as groups of imports

An import set that was built by adding imports, one by one or several at a time, holds these imports
grouped by module.  Modules stand in the order of their first imports and names in the order of
their first mentions.  So the order of the additions decides on the order of entries and of names,
and on nothing else.
-/

namespace ApiBindings.Target

/-- The modules that imports are from, each at its first import. -/
def modulesOf (imports : List Import) : List String :=
  (imports.map (·.path)).eraseDups

/-- The names that imports take from a module, each at its first mention. -/
def namesFrom (imports : List Import) (path : String) : List String :=
  ((imports.filter (·.path == path)).flatMap (·.names)).eraseDups

/-- Imports grouped by module. -/
def grouped (imports : List Import) : List Import :=
  (modulesOf imports).map fun path => ⟨namesFrom imports path, path⟩

/-- The same entries, apart from their order and from the order of the names in them. -/
def SameUpToOrder (entries others : List Import) : Prop :=
  ∃ reordered : List Import, reordered.Perm entries ∧
    List.Forall₂ (fun entry other => entry.path = other.path ∧ entry.names.Perm other.names)
      reordered others

/-! ## First occurrences -/

theorem eraseDups_concat (items : List String) (item : String) :
    (items ++ [item]).eraseDups =
      if items.contains item then items.eraseDups else items.eraseDups ++ [item] := by
  rw [List.eraseDups_append]
  split
  · rename_i known
    simp [List.removeAll, List.contains_iff_mem.mp known]
  · rename_i fresh
    rw [List.contains_iff_mem] at fresh
    simp [List.removeAll, fresh, List.eraseDups_cons]

/-- To add names is to write them behind the others and to keep the first occurrences. -/
theorem addNames_eraseDups (names new : List String) :
    addNames names.eraseDups new = (names ++ new).eraseDups := by
  induction new generalizing names with
  | nil => rw [List.append_nil, addNames, List.foldl_nil]
  | cons first rest ih =>
      have step : addNames names.eraseDups (first :: rest) =
          addNames (names ++ [first]).eraseDups rest := by
        have same : names.eraseDups.contains first = names.contains first := by
          simp [List.contains_eq_mem, List.mem_eraseDups]
        rw [eraseDups_concat, ← same]
        rfl
      rw [step, ih, List.append_assoc, List.singleton_append]

theorem nodup_eraseDups (items : List String) : items.eraseDups.Nodup := by
  have built : addNames [] items = items.eraseDups := addNames_eraseDups [] items
  rw [← built]
  exact nodup_addNames List.nodup_nil items

theorem mem_modulesOf {imports : List Import} {path : String} :
    path ∈ modulesOf imports ↔ ∃ taken ∈ imports, taken.path = path := by
  rw [modulesOf, List.mem_eraseDups, List.mem_map]

theorem nodup_modulesOf (imports : List Import) : (modulesOf imports).Nodup :=
  nodup_eraseDups _

theorem mem_namesFrom {imports : List Import} {path name : String} :
    name ∈ namesFrom imports path ↔ Provides imports path name := by
  simp only [namesFrom, List.mem_eraseDups, List.mem_flatMap, List.mem_filter, beq_iff_eq, Provides,
    and_assoc]

theorem modulesOf_concat (imports : List Import) (new : Import) :
    modulesOf (imports ++ [new]) =
      if new.path ∈ modulesOf imports then modulesOf imports
      else modulesOf imports ++ [new.path] := by
  have known : (imports.map (·.path)).contains new.path = true ↔ new.path ∈ modulesOf imports := by
    rw [modulesOf, List.mem_eraseDups, List.contains_iff_mem]
  rw [modulesOf, List.map_append, List.map_singleton, eraseDups_concat]
  exact if_congr known rfl rfl

theorem namesFrom_concat (imports : List Import) (new : Import) (path : String) :
    namesFrom (imports ++ [new]) path =
      if path = new.path then addNames (namesFrom imports path) new.names
      else namesFrom imports path := by
  rw [namesFrom, List.filter_append, List.flatMap_append]
  split
  · rename_i same
    rw [namesFrom, addNames_eraseDups, same]
    simp
  · rename_i apart
    rw [namesFrom]
    simp [Ne.symm apart]

/-- Nothing is taken from a module that no import is from. -/
theorem namesFrom_of_not_mem {imports : List Import} {path : String}
    (fresh : path ∉ modulesOf imports) : namesFrom imports path = [] := by
  apply List.eq_nil_iff_forall_not_mem.mpr
  intro name taken
  rcases mem_namesFrom.mp taken with ⟨own, member, same, -⟩
  exact fresh (mem_modulesOf.mpr ⟨own, member, same⟩)

/-! ## Adding an import -/

namespace ImportSet

/-- An import from another module goes behind all entries. -/
theorem insertInto_of_not_mem {new : Import} {entries : List Import}
    (fresh : new.path ∉ entries.map (·.path)) :
    insertInto new entries = entries ++ [⟨addNames [] new.names, new.path⟩] := by
  induction entries with
  | nil => rfl
  | cons entry rest ih =>
      rw [List.map_cons, List.mem_cons, not_or] at fresh
      have apart : (entry.path == new.path) = false := beq_eq_false_iff_ne.mpr (Ne.symm fresh.1)
      rw [insertInto, apart, if_neg Bool.false_ne_true, ih fresh.2, List.cons_append]

/-- An import from a known module adds its names to the entry for the module. -/
theorem insertInto_of_mem {new : Import} {paths : List String} (names : String → List String)
    (distinct : paths.Nodup) (known : new.path ∈ paths) :
    insertInto new (paths.map fun path => ⟨names path, path⟩) =
      paths.map fun path =>
        ⟨if path = new.path then addNames (names path) new.names else names path, path⟩ := by
  induction paths with
  | nil => cases known
  | cons path rest ih =>
      rw [List.nodup_cons] at distinct
      rw [List.map_cons, List.map_cons, insertInto]
      by_cases same : path = new.path
      · rw [if_pos (beq_iff_eq.mpr same), if_pos same, List.cons.injEq]
        refine ⟨rfl, ?_⟩
        apply List.map_congr_left
        intro other member
        have apart : other ≠ new.path := by
          rintro rfl
          exact distinct.1 (same ▸ member)
        rw [if_neg apart]
      · have later : new.path ∈ rest := by
          rcases List.mem_cons.mp known with first | later
          · exact absurd first.symm same
          · exact later
        rw [if_neg (mt beq_iff_eq.mp same), if_neg same, ih distinct.2 later]

/-- Adding an import to groups of imports makes the groups with this import. -/
theorem insertInto_grouped (imports : List Import) (new : Import) :
    insertInto new (grouped imports) = grouped (imports ++ [new]) := by
  simp only [grouped, modulesOf_concat, namesFrom_concat]
  by_cases known : new.path ∈ modulesOf imports
  · rw [if_pos known]
    exact insertInto_of_mem (namesFrom imports) (nodup_modulesOf imports) known
  · have fresh : new.path ∉ (grouped imports).map (·.path) := by
      rw [grouped, List.map_map]
      simpa using known
    have others : (modulesOf imports).map (fun path => (⟨if path = new.path then
        addNames (namesFrom imports path) new.names else namesFrom imports path, path⟩ : Import)) =
        grouped imports := by
      apply List.map_congr_left
      intro path member
      have apart : path ≠ new.path := by
        rintro rfl
        exact known member
      rw [if_neg apart]
    rw [if_neg known, List.map_append, others, List.map_singleton, if_pos rfl,
      namesFrom_of_not_mem known]
    exact insertInto_of_not_mem fresh

theorem entries_foldl_insert {set : ImportSet} {imports : List Import}
    (before : set.entries = grouped imports) (new : List Import) :
    (new.foldl insert set).entries = grouped (imports ++ new) := by
  induction new generalizing set imports with
  | nil => rw [List.append_nil, List.foldl_nil, before]
  | cons first rest ih =>
      have after : (set.insert first).entries = grouped (imports ++ [first]) := by
        rw [insert, before, insertInto_grouped]
      rw [List.foldl_cons, ih after, List.append_assoc, List.singleton_append]

/-! ## Additions -/

/-- What can be added to an import set at once. -/
inductive Addition where
  | one (new : Import)
  | several (new : List Import)

/-- The imports of an addition. -/
def Addition.imports : Addition → List Import
  | .one new => [new]
  | .several new => new

/-- Add to an import set. -/
def Addition.addTo (set : ImportSet) : Addition → ImportSet
  | .one new => set.insert new
  | .several new => set.extend new

/-- The import set that comes of some additions. -/
def ofAdditions (additions : List Addition) : ImportSet :=
  additions.foldl Addition.addTo {}

theorem Addition.addTo_eq (set : ImportSet) (addition : Addition) :
    addition.addTo set = addition.imports.foldl insert set := by
  cases addition with
  | one new => rfl
  | several new => rfl

/-- How imports are split into additions does not matter. -/
theorem foldl_addTo (additions : List Addition) (set : ImportSet) :
    additions.foldl Addition.addTo set =
      (additions.flatMap Addition.imports).foldl insert set := by
  induction additions generalizing set with
  | nil => rfl
  | cons addition rest ih =>
      rw [List.foldl_cons, List.flatMap_cons, List.foldl_append, ih, Addition.addTo_eq]

theorem entries_ofAdditions (additions : List Addition) :
    (ofAdditions additions).entries = grouped (additions.flatMap Addition.imports) := by
  have empty : ({} : ImportSet).entries = grouped [] := rfl
  rw [ofAdditions, foldl_addTo, entries_foldl_insert empty, List.nil_append]

end ImportSet

/-! ## The order of additions -/

theorem SameUpToOrder.grouped {imports others : List Import} (perm : others.Perm imports) :
    SameUpToOrder (grouped imports) (grouped others) := by
  have members (path : String) : path ∈ modulesOf others ↔ path ∈ modulesOf imports := by
    simp only [mem_modulesOf, perm.mem_iff]
  have provided (path name : String) : name ∈ namesFrom imports path ↔
      name ∈ namesFrom others path := by
    simp only [mem_namesFrom, Provides, perm.mem_iff]
  refine ⟨(modulesOf others).map fun path => ⟨namesFrom imports path, path⟩, ?_, ?_⟩
  · apply List.Perm.map
    exact (List.perm_ext_iff_of_nodup (nodup_modulesOf others) (nodup_modulesOf imports)).mpr
      members
  · rw [Target.grouped, List.forall₂_map_left_iff, List.forall₂_map_right_iff, List.forall₂_same]
    intro path member
    refine ⟨rfl, ?_⟩
    exact (List.perm_ext_iff_of_nodup (nodup_eraseDups _) (nodup_eraseDups _)).mpr (provided path)

namespace ImportSet

theorem size_of_entries_eq {set : ImportSet} {imports : List Import}
    (groups : set.entries = grouped imports) :
    set.size = (imports.map (·.path)).toFinset.card := by
  have same : (imports.map (·.path)).toFinset = (modulesOf imports).toFinset := by
    ext path
    simp only [modulesOf, List.mem_toFinset, List.mem_eraseDups]
  rw [size, groups, grouped, List.length_map, same,
    List.toFinset_card_of_nodup (nodup_modulesOf imports)]

/-- An import set groups the imports that were added to it by module, however they were split into
additions. Adding them in another order leads to the same groups in another order. -/
theorem ofAdditions_groups (additions : List Addition) :
    let set := ofAdditions additions
    let imports := additions.flatMap Addition.imports
    set.entries = grouped imports ∧
      set.size = (imports.map (·.path)).toFinset.card ∧
      set = imports.foldl insert {} ∧
      ∀ others : List Addition, (others.flatMap Addition.imports).Perm imports →
        SameUpToOrder set.entries (ofAdditions others).entries := by
  intro set imports
  have groups : set.entries = grouped imports := entries_ofAdditions additions
  refine ⟨groups, size_of_entries_eq groups, foldl_addTo additions {}, ?_⟩
  intro others perm
  rw [groups, entries_ofAdditions others]
  exact .grouped perm

/-- A name twice in an import, an import of a known module, and one without names. -/
example :
    ofAdditions [.one ⟨["B", "A", "B"], "./m"⟩, .several [⟨[], "./n"⟩, ⟨["A", "C"], "./m"⟩]] =
      ⟨[⟨["B", "A", "C"], "./m"⟩, ⟨[], "./n"⟩]⟩ := by decide

end ImportSet

end ApiBindings.Target
