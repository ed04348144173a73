import ApiBindings.Proofs.Fallible
import ApiBindings.FileTree.Access

/-!
# Growing file trees

Creating directories and writing files takes nothing away: a directory stays a directory, and a file
stays a file, with other contents at most.  Whatever is found in a tree is found in a tree that grew
out of it, and what stands in the way still does; only what was missing may be there by now.
-/

namespace ApiBindings.FileTree

variable {changed : Location → Prop}

theorem isDirectory_iff {tree : FileTree} {place : Location} :
    tree.isDirectory place = true ↔ tree.find? place = some .directory := by
  rw [isDirectory]
  split <;> simp_all

/-- A tree that has grown, where only the files at some places may have changed. -/
structure Grows (changed : Location → Prop) (tree later : FileTree) : Prop where
  workingDirectory : later.workingDirectory = tree.workingDirectory
  directory : ∀ place, tree.find? place = some .directory → later.find? place = some .directory
  file : ∀ place contents, tree.find? place = some (.file contents) →
    ∃ other, later.find? place = some (.file other) ∧ (¬ changed place → other = contents)

namespace Grows

theorem refl (tree : FileTree) : Grows changed tree tree where
  workingDirectory := rfl
  directory := fun _ found => found
  file := fun _ contents found => ⟨contents, found, fun _ => rfl⟩

theorem trans {tree between later : FileTree} (grows : Grows changed tree between)
    (growsOn : Grows changed between later) : Grows changed tree later where
  workingDirectory := growsOn.workingDirectory.trans grows.workingDirectory
  directory := fun place found => growsOn.directory place (grows.directory place found)
  file := by
    intro place contents found
    obtain ⟨other, foundThere, same⟩ := grows.file place contents found
    obtain ⟨last, foundLater, sameLater⟩ := growsOn.file place other foundThere
    exact ⟨last, foundLater, fun kept => (sameLater kept).trans (same kept)⟩

theorem mono {more : Location → Prop} {tree later : FileTree} (grows : Grows changed tree later)
    (sub : ∀ place, changed place → more place) : Grows more tree later where
  workingDirectory := grows.workingDirectory
  directory := grows.directory
  file := by
    intro place contents found
    obtain ⟨other, foundLater, same⟩ := grows.file place contents found
    exact ⟨other, foundLater, fun kept => same fun here => kept (sub place here)⟩

/-- A file keeps its contents at a place where nothing may change. -/
theorem file_of_not_changed {tree later : FileTree} (grows : Grows changed tree later)
    {place : Location} {contents : ByteArray} (found : tree.find? place = some (.file contents))
    (kept : ¬ changed place) : later.find? place = some (.file contents) := by
  obtain ⟨other, foundLater, same⟩ := grows.file place contents found
  rw [foundLater, same kept]

theorem isDirectory_eq_true {tree later : FileTree} (grows : Grows changed tree later)
    {place : Location} (there : tree.isDirectory place = true) :
    later.isDirectory place = true := by
  rw [isDirectory_iff] at there ⊢
  exact grows.directory place there

/-- A directory is created where nothing is. -/
theorem insert_directory {tree : FileTree} {name : List Char} {around : Location}
    (free : tree.find? (name :: around) = none) :
    Grows changed tree (tree.insert (name :: around) .directory) where
  workingDirectory := rfl
  directory := by
    intro place found
    rw [find?_insert]
    split
    · rfl
    · exact found
  file := by
    intro place contents found
    have apart : place ≠ name :: around := by
      rintro rfl
      rw [free] at found
      cases found
    exact ⟨contents, by rw [find?_insert, if_neg apart, found], fun _ => rfl⟩

/-- A file is written where no directory is. -/
theorem insert_file {tree : FileTree} {name : List Char} {around : Location}
    (free : tree.isDirectory (name :: around) = false) (contents : ByteArray)
    (here : changed (name :: around)) :
    Grows changed tree (tree.insert (name :: around) (.file contents)) where
  workingDirectory := rfl
  directory := by
    intro place found
    have apart : place ≠ name :: around := by
      rintro rfl
      rw [isDirectory, found] at free
      cases free
    rw [find?_insert, if_neg apart, found]
  file := by
    intro place old found
    by_cases same : place = name :: around
    · subst same
      exact ⟨contents, by rw [find?_insert, if_pos rfl], fun kept => absurd here kept⟩
    · exact ⟨old, by rw [find?_insert, if_neg same, found], fun _ => rfl⟩

/-! ## Ways through a grown tree -/

variable {tree later : FileTree} (grows : Grows changed tree later)

include grows

/-- A step comes to the same in a grown tree, unless it was missing. -/
theorem enter_eq {place : Location} {segment : List Char}
    (there : tree.enter place segment ≠ .error .notFound) :
    later.enter place segment = tree.enter place segment := by
  unfold enter at there ⊢
  split
  · rfl
  · split
    · rfl
    · split
      · rfl
      · cases found : tree.find? (segment :: place) with
        | none => simp_all
        | some entry =>
            cases entry with
            | directory => rw [grows.directory _ found]
            | file contents =>
                obtain ⟨other, foundLater, -⟩ := grows.file _ _ found
                rw [foundLater]

/-- A way leads to the same place or to the same obstacle in a grown tree, unless a part of it was
missing. -/
theorem walk_eq {start : Location} {segments : List (List Char)}
    (there : segments.foldlM tree.enter start ≠ .error .notFound) :
    segments.foldlM later.enter start = segments.foldlM tree.enter start := by
  induction segments generalizing start with
  | nil => rfl
  | cons segment rest ih =>
      rw [List.foldlM_cons] at there
      rw [List.foldlM_cons, List.foldlM_cons]
      have step : tree.enter start segment ≠ .error .notFound := by
        intro missing
        apply there
        rw [missing]
        rfl
      rw [grows.enter_eq step]
      cases entered : tree.enter start segment with
      | error error => rfl
      | ok next =>
          rw [entered] at there
          exact ih there

/-- A path stands for the same in a grown tree, unless a part of it was missing. -/
theorem target_eq {path : Path} (there : tree.target path ≠ .error .notFound) :
    later.target path = tree.target path := by
  unfold target at there ⊢
  rw [grows.workingDirectory]
  cases legal : checkPath path with
  | error error => rfl
  | ok checked =>
      rw [legal] at there
      simp only [bind, Except.bind, targetFrom] at there ⊢
      split
      · rfl
      · rename_i last before cut
        simp only [cut] at there
        rw [grows.walk_eq]
        intro missing
        rw [missing] at there
        exact there rfl

end Grows

end ApiBindings.FileTree
