import ApiBindings.Proofs.FileTree.Repetition

/-!
# Sound trees

In a file tree as a machine has it, everything lies in a directory: what is at a place is in the
directory around it.  Paving ways and writing files keep this, because they go on from directories
only and never put a file in place of one.
-/

namespace ApiBindings.FileTree

/-- Everything in a tree lies in a directory, and relative paths start from one. -/
structure IsSound (tree : FileTree) : Prop where
  around : ∀ name place, tree.find? (name :: place) ≠ none → tree.isDirectory place = true
  workingDirectory : tree.isDirectory tree.workingDirectory = true

theorem exists_entry_of_find? {tree : FileTree} {name : List Char} {place : Location}
    (there : tree.find? (name :: place) ≠ none) :
    ∃ entry, (name :: place, entry) ∈ tree.entries := by
  obtain ⟨entry, found⟩ := Option.ne_none_iff_exists'.mp there
  obtain ⟨before, after, split, -⟩ := List.lookup_eq_some_iff.mp found
  exact ⟨entry, by simp [split]⟩

theorem find?_ne_none_of_mem {tree : FileTree} {place : Location} {entry : FileEntry}
    (member : (place, entry) ∈ tree.entries) : tree.find? place ≠ none := by
  cases place with
  | nil => simp [find?]
  | cons name around =>
      rw [find?, ne_eq, List.lookup_eq_none_iff]
      · intro none
        simpa using none _ member
      · simp

/-- It is enough to look at the entries of a tree. -/
theorem isSound_iff {tree : FileTree} :
    tree.IsSound ↔ (∀ entry ∈ tree.entries, tree.isDirectory entry.1.tail = true) ∧
      tree.isDirectory tree.workingDirectory = true := by
  constructor
  · intro sound
    refine ⟨?_, sound.workingDirectory⟩
    rintro ⟨place, entry⟩ member
    cases place with
    | nil => rfl
    | cons name around => exact sound.around name around (find?_ne_none_of_mem member)
  · rintro ⟨entries, workingDirectory⟩
    refine ⟨?_, workingDirectory⟩
    intro name place there
    obtain ⟨entry, member⟩ := exists_entry_of_find? there
    exact entries _ member

instance (tree : FileTree) : Decidable tree.IsSound :=
  decidable_of_iff _ isSound_iff.symm

namespace IsSound

variable {tree : FileTree} (sound : tree.IsSound)

include sound

theorem isDirectory_tail {place : Location} (there : tree.isDirectory place = true) :
    tree.isDirectory place.tail = true := by
  cases place with
  | nil => rfl
  | cons name around =>
      apply sound.around name around
      rw [isDirectory_iff.mp there]
      simp

theorem isDirectory_start (path : Path) : tree.isDirectory (tree.start path) = true := by
  rw [start]
  split
  · rfl
  · exact sound.workingDirectory

/-! ## Entries -/

section Entries

variable {name : List Char} {place : Location} (there : tree.isDirectory place = true)

include there

/-- What is put into a directory leaves a tree sound, unless it is a file in place of a
directory. -/
theorem insert {entry : FileEntry}
    (kept : tree.isDirectory (name :: place) = true → entry = .directory) :
    (tree.insert (name :: place) entry).IsSound := by
  have still : ∀ other, tree.isDirectory other = true →
      (tree.insert (name :: place) entry).isDirectory other = true := by
    intro other directory
    rw [isDirectory_iff, find?_insert]
    split
    · rename_i here
      rw [kept (here ▸ directory)]
    · exact isDirectory_iff.mp directory
  refine ⟨?_, still _ sound.workingDirectory⟩
  intro other around present
  apply still
  rw [find?_insert] at present
  split at present
  · rename_i here
    cases here
    exact there
  · exact sound.around other around present

theorem insert_directory : (tree.insert (name :: place) .directory).IsSound :=
  sound.insert there fun _ => rfl

theorem insert_file (free : tree.isDirectory (name :: place) = false) (contents : ByteArray) :
    (tree.insert (name :: place) (.file contents)).IsSound :=
  sound.insert there fun directory => by simp [free] at directory

end Entries

/-! ## Ways -/

theorem enter {place next : Location} {step : List Char} (there : tree.isDirectory place = true)
    (entered : tree.enter place step = .ok next) : tree.isDirectory next = true := by
  unfold FileTree.enter at entered
  split at entered
  · cases entered
    exact there
  · split at entered
    · cases entered
      exact sound.isDirectory_tail there
    · split at entered
      · cases entered
      · split at entered
        · rename_i found
          cases entered
          exact isDirectory_iff.mpr found
        · cases entered
        · cases entered

theorem walk {place reached : Location} {steps : List (List Char)}
    (there : tree.isDirectory place = true)
    (walked : steps.foldlM tree.enter place = .ok reached) : tree.isDirectory reached = true := by
  induction steps generalizing place with
  | nil =>
      cases walked
      exact there
  | cons step rest ih =>
      rw [List.foldlM_cons] at walked
      obtain ⟨next, entered, onward⟩ := Except.bind_eq_ok_iff.mp walked
      exact ih (sound.enter there entered) onward

theorem paveStep {place : Location} (step : List Char) (there : tree.isDirectory place = true) :
    (tree.paveStep place step).2.IsSound ∧ ∀ next, (tree.paveStep place step).1 = .ok next →
      (tree.paveStep place step).2.isDirectory next = true := by
  rw [FileTree.paveStep]
  split
  · exact ⟨sound, by rintro _ ⟨⟩; exact sound.isDirectory_tail there⟩
  · split
    · exact ⟨sound, by rintro _ ⟨⟩⟩
    · split
      · rename_i found
        exact ⟨sound, by rintro _ ⟨⟩; exact isDirectory_iff.mpr found⟩
      · exact ⟨sound, by rintro _ ⟨⟩⟩
      · refine ⟨sound.insert_directory there, ?_⟩
        rintro _ ⟨⟩
        rw [isDirectory_iff, find?_insert, if_pos rfl]

theorem pave {place : Location} (steps : List (List Char))
    (there : tree.isDirectory place = true) : (tree.pave place steps).2.IsSound := by
  induction steps generalizing tree place with
  | nil => exact sound
  | cons step rest ih =>
      obtain ⟨still, onward⟩ := sound.paveStep step there
      rcases first : tree.paveStep place step with ⟨error | next, after⟩
      · rw [pave_cons_of_error first]
        rwa [first] at still
      · rw [pave_cons_of_ok first]
        rw [first] at still onward
        exact ih still (onward next rfl)

theorem ensured (path : Path) : (tree.ensured path).2.IsSound := by
  rw [FileTree.ensured]
  split
  · exact sound
  · rw [makeWay_snd fun _ member => Path.isIdle_of_mem_steps member]
    exact sound.pave path.steps (sound.isDirectory_start path)

/-! ## Files -/

variable {path parent : Path} {name : List Char} (ends : path.EndsIn name)

include ends

/-- A file lies in a directory. -/
theorem isDirectory_around {around : Location}
    (reached : tree.target path = .ok (.named around name false)) :
    tree.isDirectory around = true := by
  obtain ⟨parent, found⟩ := ends.exists_parent?
  obtain ⟨checked, legal, -⟩ := Except.bind_eq_ok_iff.mp reached
  rw [target_of_endsIn ends found legal] at reached
  obtain ⟨place, walked, last⟩ := Except.bind_eq_ok_iff.mp reached
  split at last
  · cases last
  · cases last
    exact sound.walk (sound.isDirectory_start parent) walked

theorem written (contents : String) : (tree.written path contents).2.IsSound := by
  cases reached : tree.target path with
  | error error =>
      rw [written_of_target_error reached]
      exact sound
  | ok target =>
      obtain ⟨around, rfl⟩ := exists_of_target ends reached
      rw [written_of_target reached]
      split
      · exact sound
      · rename_i free
        exact sound.insert_file (sound.isDirectory_around ends reached) (by simpa using free) _

theorem writtenInto (contents : String) : (tree.writtenInto path contents).2.IsSound := by
  obtain ⟨parent, found⟩ := ends.exists_parent?
  have ensured := sound.ensured parent
  rcases made : tree.ensured parent with ⟨error | done, after⟩
  · rw [made] at ensured
    rwa [writtenInto_of_error found made]
  · rw [made] at ensured
    rw [writtenInto_of_ok found made]
    exact ensured.written ends contents

end IsSound

end ApiBindings.FileTree
