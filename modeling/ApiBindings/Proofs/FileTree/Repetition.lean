import ApiBindings.Proofs.FileTree.Directories
import ApiBindings.Proofs.FileTree.Reading

/-!
# Writing again

To write a text to a file that holds it changes nothing, nor does another attempt to write a file
that could not be written before.  This holds in every tree that grew out of the one that was left,
as long as the file was not written otherwise.  The attempt also reports what it reported before,
but for a file in the way behind a directory that was missing: that directory is there by now, and
the file is met on the way instead of at its end.
-/

namespace ApiBindings.FileTree

variable {changed : Location → Prop} {tree later : FileTree} {place : Location}
  {steps : List (List Char)}

/-! ## Ways -/

/-- A file that stands in a way behind a directory that is missing. -/
structure Hidden (tree : FileTree) (place : Location) (steps : List (List Char)) : Prop where
  missing : steps.dropLast.foldlM tree.enter place = .error .notFound
  file : (tree.pave place steps).1 = .error .alreadyExists

/-- A way that was made is made again: nothing is created, and the result is the same unless a file
was hidden. -/
theorem makeWay_again (busy : ∀ step ∈ steps, Path.isIdle step = false)
    (grows : Grows changed (tree.makeWay place steps).2 later) :
    (later.makeWay place steps).2 = later ∧
      ((later.makeWay place steps).1 = (tree.makeWay place steps).1 ∨
        tree.Hidden place steps ∧ (tree.makeWay place steps).1 = .error .alreadyExists ∧
          (later.makeWay place steps).1 = .error .notADirectory) := by
  rcases blocked_or_open tree place steps.dropLast with ⟨error, there, blocked⟩ | missing
  · have made := makeWay_of_blocked blocked there
    rw [made] at grows ⊢
    have blockedLater : steps.dropLast.foldlM later.enter place = .error error := by
      rw [grows.walk_eq (by simp [blocked, there]), blocked]
    rw [makeWay_of_blocked blockedLater there]
    exact ⟨rfl, .inl rfl⟩
  · have made := makeWay_of_open missing
    rw [made] at grows ⊢
    rcases first : tree.pave place steps with ⟨error | reached, after⟩
    · simp only [paved, first] at grows ⊢
      have blocked := pave_of_error busy first grows
      rcases blocked_or_open later place steps.dropLast with ⟨fault, there, earlier⟩ | missingLater
      · obtain ⟨report, reports, pavedLater⟩ := exists_pave_of_walk_error busy
          (foldlM_enter_dropLast_error earlier) there
        rw [makeWay_of_blocked earlier there]
        obtain rfl : error = report := by
          rw [blocked] at pavedLater
          exact Except.error.inj (Prod.mk.inj pavedLater).1
        cases reports with
        | same => exact ⟨rfl, .inl rfl⟩
        | file =>
            refine ⟨rfl, .inr ⟨⟨?_, by rw [first]⟩, rfl, rfl⟩⟩
            cases walked : steps.dropLast.foldlM tree.enter place with
            | error error => rw [missing error walked]
            | ok reached =>
                have growsOn := grows_pave changed tree place steps
                rw [first] at growsOn
                rw [(growsOn.trans grows).walk_eq (by simp [walked]), walked] at earlier
                cases earlier
      · rw [makeWay_of_open missingLater, paved, blocked]
        exact ⟨rfl, .inl rfl⟩
    · simp only [paved, first] at grows ⊢
      have walked := walk_of_pave busy first grows
      rw [makeWay_of_open, paved, pave_of_walk busy walked]
      · exact ⟨rfl, .inl rfl⟩
      · intro error blocked
        rw [foldlM_enter_dropLast_error blocked] at walked
        cases walked

theorem start_of_grows {path : Path} (grows : Grows changed tree later) :
    later.start path = tree.start path := by
  rw [start, start, grows.workingDirectory]

/-- A directory that was made sure of is made sure of again. -/
theorem ensured_again {path : Path} (grows : Grows changed (tree.ensured path).2 later) :
    (later.ensured path).2 = later ∧
      ((later.ensured path).1 = (tree.ensured path).1 ∨
        tree.Hidden (tree.start path) path.steps ∧
          (tree.ensured path).1 = .error .alreadyExists ∧
          (later.ensured path).1 = .error .notADirectory) := by
  have start : later.start path = tree.start path :=
    start_of_grows ((grows_ensured changed tree path).trans grows)
  unfold ensured at grows ⊢
  split
  · exact ⟨rfl, .inl rfl⟩
  · rename_i legal
    rw [legal] at grows
    rw [start]
    exact makeWay_again (fun _ member => Path.isIdle_of_mem_steps member) grows

/-- The way to a directory that was made sure of can be followed. -/
theorem walk_of_ensured {path : Path} {after : FileTree}
    (made : tree.ensured path = (.ok (), after)) :
    ∃ reached, path.steps.foldlM after.enter (after.start path) = .ok reached := by
  have grows := grows_ensured (fun _ => False) tree path
  rw [made] at grows
  rw [start_of_grows grows]
  have busy : ∀ step ∈ path.steps, Path.isIdle step = false :=
    fun _ member => Path.isIdle_of_mem_steps member
  unfold ensured at made
  split at made
  · cases made
  · rcases blocked_or_open tree (tree.start path) path.steps.dropLast with
      ⟨error, there, blocked⟩ | missing
    · rw [makeWay_of_blocked blocked there] at made
      cases made
    · rw [makeWay_of_open missing, paved] at made
      rcases first : tree.pave (tree.start path) path.steps with ⟨error | reached, final⟩
      · rw [first] at made
        cases made
      · rw [first] at made
        obtain rfl : final = after := (Prod.mk.inj made).2
        exact ⟨reached, walk_of_pave busy first (.refl final : Grows (fun _ => False) final final)⟩

/-! ## Files -/

theorem insertEntry_of_lookup {place : Location} {entry : FileEntry}
    {entries : List (Location × FileEntry)} (found : entries.lookup place = some entry) :
    insertEntry place entry entries = entries := by
  induction entries with
  | nil => cases found
  | cons head rest ih =>
      obtain ⟨other, old⟩ := head
      by_cases same : place = other
      · subst same
        simp only [List.lookup_cons, BEq.rfl, Option.some.injEq] at found
        simp [insertEntry, found]
      · have away : (place == other) = false := by simpa using same
        rw [List.lookup_cons, away] at found
        simp [insertEntry, same, ih found]

/-- To put at a place what is there changes nothing. -/
theorem insert_of_find? {name : List Char} {around : Location} {entry : FileEntry}
    (found : tree.find? (name :: around) = some entry) :
    tree.insert (name :: around) entry = tree := by
  rw [insert, insertEntry_of_lookup found]

section Files

variable {path : Path} {name : List Char} {contents : String}

/-- What writing at a place does. -/
theorem written_of_target {around : Location}
    (reached : tree.target path = .ok (.named around name false)) :
    tree.written path contents =
      if tree.isDirectory (name :: around) then (.error ⟨path, .isADirectory⟩, tree)
      else (.ok path, tree.insert (name :: around) (.file contents.toUTF8)) := by
  rw [written, writeFile, reached]
  cases taken : tree.isDirectory (name :: around) <;> simp [bind, Except.bind, taken] <;> rfl

theorem written_of_target_error {error : FileError} (failed : tree.target path = .error error) :
    tree.written path contents = (.error ⟨path, error⟩, tree) := by
  rw [written, writeFile, failed]
  rfl

/-- Writing changes no file but those of the name. -/
theorem grows_written (ends : path.EndsIn name) (tree : FileTree) (contents : String) :
    Grows (·.head? = some name) tree (tree.written path contents).2 := by
  cases reached : tree.target path with
  | error error =>
      rw [written_of_target_error reached]
      exact .refl tree
  | ok target =>
      obtain ⟨around, rfl⟩ := exists_of_target ends reached
      rw [written_of_target reached]
      split
      · exact .refl tree
      · rename_i free
        exact .insert_file (by simpa using free) contents.toUTF8 rfl

/-- A file that was written, or could not be, is written again or cannot be. -/
theorem written_again (ends : path.EndsIn name)
    (there : tree.target path ≠ .error .notFound)
    (kept : ∀ place : Location, place.head? = some name → ¬ changed place)
    (grows : Grows changed (tree.written path contents).2 later) :
    later.written path contents = ((tree.written path contents).1, later) := by
  cases reached : tree.target path with
  | error error =>
      rw [written_of_target_error reached] at grows ⊢
      rw [written_of_target_error ((grows.target_eq there).trans reached)]
  | ok target =>
      obtain ⟨around, rfl⟩ := exists_of_target ends reached
      have growsOn : Grows (fun _ => True) tree later :=
        ((grows_written ends tree contents).mono fun _ _ => trivial).trans
          (grows.mono fun _ _ => trivial)
      rw [written_of_target reached] at grows ⊢
      rw [written_of_target ((growsOn.target_eq there).trans reached)]
      cases taken : tree.isDirectory (name :: around) with
      | true =>
          simp [growsOn.isDirectory_eq_true taken]
      | false =>
          simp only [taken, Bool.false_eq_true, if_false] at grows ⊢
          have found := grows.file_of_not_changed (by rw [find?_insert, if_pos rfl])
            (kept (name :: around) rfl)
          rw [insert_of_find? found]
          simp [isDirectory, found]

/-! ## Files in their directories -/

section Directories

variable {parent : Path} {after : FileTree} (found : path.parent? = some parent)

include found

theorem writtenInto_of_error {cause : FileError}
    (made : tree.ensured parent = (.error cause, after)) (contents : String) :
    tree.writtenInto path contents = (.error ⟨parent, cause⟩, after) := by
  simp only [writtenInto, found, ensureFirst_directories (Path.isTidy_parent? found), made]

theorem writtenInto_of_ok (made : tree.ensured parent = (.ok (), after)) (contents : String) :
    tree.writtenInto path contents = after.written path contents := by
  simp only [writtenInto, found, ensureFirst_directories (Path.isTidy_parent? found), made]

end Directories

/-- Writing a file with its directories changes no file but those of its name. -/
theorem grows_writtenInto (ends : path.EndsIn name) (tree : FileTree) (contents : String) :
    Grows (·.head? = some name) tree (tree.writtenInto path contents).2 := by
  obtain ⟨parent, found⟩ := ends.exists_parent?
  have grows := grows_ensured (·.head? = some name) tree parent
  rcases made : tree.ensured parent with ⟨error | done, after⟩
  · rw [made] at grows
    rwa [writtenInto_of_error found made]
  · rw [made] at grows
    rw [writtenInto_of_ok found made]
    exact grows.trans (grows_written ends after contents)

/-- With its directories in place, nothing that a path passes is missing. -/
theorem target_ne_notFound {parent : Path} {after : FileTree} (ends : path.EndsIn name)
    (found : path.parent? = some parent) (made : tree.ensured parent = (.ok (), after)) :
    after.target path ≠ .error .notFound := by
  obtain ⟨reached, walked⟩ := walk_of_ensured made
  cases legal : checkPath path with
  | ok checked =>
      rw [target_of_endsIn ends found legal, walked]
      simp only [bind, Except.bind]
      split <;> simp
  | error error =>
      rw [target, legal]
      rintro ⟨⟩
      simp only [checkPath] at legal
      split at legal
      · cases legal
      · split at legal
        · rename_i empty
          exact Path.text_ne_nil_of_parent? found (List.isEmpty_iff.mp empty)
        · split at legal <;> cases legal

/-- Another attempt to write a text into a file changes nothing, and has the result of the first
unless a file was hidden on the way. -/
theorem writtenInto_again {parent : Path} (ends : path.EndsIn name)
    (found : path.parent? = some parent)
    (kept : ∀ place : Location, place.head? = some name → ¬ changed place)
    (grows : Grows changed (tree.writtenInto path contents).2 later) :
    (later.writtenInto path contents).2 = later ∧
      ((later.writtenInto path contents).1 = (tree.writtenInto path contents).1 ∨
        tree.Hidden (tree.start parent) parent.steps ∧
          (tree.writtenInto path contents).1 = .error ⟨parent, .alreadyExists⟩ ∧
          (later.writtenInto path contents).1 = .error ⟨parent, .notADirectory⟩) := by
  rcases made : tree.ensured parent with ⟨error | done, after⟩
  · rw [writtenInto_of_error found made] at grows ⊢
    have grown : Grows changed (tree.ensured parent).2 later := by rwa [made]
    have again := ensured_again grown
    rw [made] at again
    obtain ⟨still, same | ⟨hidden, first, second⟩⟩ := again
    · have madeLater : later.ensured parent = (.error error, later) := Prod.ext same still
      rw [writtenInto_of_error found madeLater]
      exact ⟨rfl, .inl rfl⟩
    · cases first
      have madeLater : later.ensured parent = (.error .notADirectory, later) :=
        Prod.ext second still
      rw [writtenInto_of_error found madeLater]
      exact ⟨rfl, .inr ⟨hidden, rfl, rfl⟩⟩
  · rw [writtenInto_of_ok found made] at grows ⊢
    have growsOn : Grows (fun _ => True) after later :=
      ((grows_written ends after contents).mono fun _ _ => trivial).trans
        (grows.mono fun _ _ => trivial)
    have grown : Grows (fun _ => True) (tree.ensured parent).2 later := by rwa [made]
    have again := ensured_again grown
    rw [made] at again
    obtain ⟨still, same | ⟨-, first, -⟩⟩ := again
    · have madeLater : later.ensured parent = (.ok (), later) := Prod.ext same still
      rw [writtenInto_of_ok found madeLater,
        written_again ends (target_ne_notFound ends found made) kept grows]
      exact ⟨rfl, .inl rfl⟩
    · cases first

end Files

end ApiBindings.FileTree
