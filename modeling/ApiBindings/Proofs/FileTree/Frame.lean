import ApiBindings.Proofs.FileTree.Repetition

/-!
# What an operation leaves alone

The places on the way to a directory can be read off its path, as nothing in a tree makes a step
lead to anywhere but where it says.  Making sure of the directory adds directories at some of these
places, whether it succeeds or stops half-way, and touches nothing else.  Writing a file into the
directory puts the file at one more place, or changes nothing further.
-/

namespace ApiBindings.FileTree

/-- The places that are named by steps from a directory. A step back names none. -/
def namedFrom (place : Location) : List (List Char) → List Location
  | [] => []
  | step :: rest =>
      if step = ['.', '.'] then namedFrom place.tail rest
      else (step :: place) :: namedFrom (step :: place) rest

/-- The places of the directories on the way to a directory, and of the directory itself. -/
def wayTo (tree : FileTree) (path : Path) : List Location :=
  namedFrom (tree.start path) path.steps

/-- A tree with directories in addition, at some of the given places and where nothing was. -/
structure Extends (places : List Location) (tree later : FileTree) : Prop where
  workingDirectory : later.workingDirectory = tree.workingDirectory
  same_or_new : ∀ place, later.find? place = tree.find? place ∨
    place ∈ places ∧ tree.find? place = none ∧ later.find? place = some .directory

namespace Extends

variable {places more : List Location} {tree between later : FileTree} {place : Location}

theorem refl (tree : FileTree) : Extends places tree tree where
  workingDirectory := rfl
  same_or_new := fun _ => .inl rfl

theorem trans (first : Extends places tree between) (second : Extends places between later) :
    Extends places tree later where
  workingDirectory := second.workingDirectory.trans first.workingDirectory
  same_or_new := by
    intro place
    rcases second.same_or_new place with same | ⟨within, missing, there⟩
    · rw [same]
      exact first.same_or_new place
    · rcases first.same_or_new place with same | ⟨-, -, there⟩
      · exact .inr ⟨within, same ▸ missing, there⟩
      · rw [missing] at there
        cases there

theorem mono (extended : Extends places tree later) (sub : places ⊆ more) :
    Extends more tree later where
  workingDirectory := extended.workingDirectory
  same_or_new := fun place =>
    (extended.same_or_new place).imp_right fun ⟨within, added⟩ => ⟨sub within, added⟩

theorem insert_directory {name : List Char} (missing : tree.find? (name :: place) = none)
    (within : name :: place ∈ places) :
    Extends places tree (tree.insert (name :: place) .directory) where
  workingDirectory := rfl
  same_or_new := by
    intro other
    rw [find?_insert]
    split
    · rename_i here
      subst here
      exact .inr ⟨within, missing, rfl⟩
    · exact .inl rfl

variable (extended : Extends places tree later)

include extended

/-- Nothing is different elsewhere. -/
theorem find?_of_not_mem (apart : place ∉ places) : later.find? place = tree.find? place := by
  rcases extended.same_or_new place with same | ⟨within, -⟩
  · exact same
  · exact absurd within apart

/-- The files are the same, wherever they are. -/
theorem find?_file_iff {contents : ByteArray} :
    later.find? place = some (.file contents) ↔ tree.find? place = some (.file contents) := by
  rcases extended.same_or_new place with same | ⟨-, missing, there⟩
  · rw [same]
  · simp [missing, there]

theorem grows {changed : Location → Prop} : Grows changed tree later where
  workingDirectory := extended.workingDirectory
  directory := by
    intro place found
    rcases extended.same_or_new place with same | ⟨-, missing, -⟩
    · rwa [same]
    · rw [missing] at found
      cases found
  file := fun place contents found => ⟨contents, extended.find?_file_iff.mpr found, fun _ => rfl⟩

/-- What is a directory now was one, or was missing. -/
theorem missing_or_directory (there : later.find? place = some .directory) :
    tree.find? place = none ∨ tree.find? place = some .directory := by
  rcases extended.same_or_new place with same | ⟨-, missing, -⟩
  · exact .inr (same ▸ there)
  · exact .inl missing

end Extends

variable {tree after : FileTree} {place reached : Location} {steps : List (List Char)}
  {path directory : Path}

/-! ## Ways -/

theorem extends_paveStep (tree : FileTree) (place : Location) (step : List Char)
    (rest : List (List Char)) :
    Extends (namedFrom place (step :: rest)) tree (tree.paveStep place step).2 := by
  rw [paveStep]
  split
  · exact .refl tree
  · rename_i onwards
    split
    · exact .refl tree
    · split
      · exact .refl tree
      · exact .refl tree
      · rename_i missing
        refine .insert_directory missing ?_
        rw [namedFrom, if_neg onwards]
        exact List.mem_cons_self

/-- A step leads to the same place in every tree, so that the steps behind it name the same. -/
theorem namedFrom_of_paveStep {step : List Char}
    (paved : tree.paveStep place step = (.ok reached, after)) (rest : List (List Char)) :
    namedFrom reached rest ⊆ namedFrom place (step :: rest) := by
  rw [paveStep] at paved
  rw [namedFrom]
  split at paved
  · cases paved
    rw [if_pos ‹_›]
    exact List.Subset.refl _
  · rw [if_neg ‹_›]
    split at paved
    · cases paved
    · split at paved <;> cases paved
      all_goals exact List.subset_cons_self _ _

/-- Paving a way adds directories on the way only, also where it is given up. -/
theorem extends_pave (tree : FileTree) (place : Location) (steps : List (List Char)) :
    Extends (namedFrom place steps) tree (tree.pave place steps).2 := by
  induction steps generalizing tree place with
  | nil => exact .refl tree
  | cons step rest ih =>
      have now := extends_paveStep tree place step rest
      rcases first : tree.paveStep place step with ⟨error | next, after⟩
      · rw [first] at now
        rwa [pave_cons_of_error first]
      · rw [first] at now
        rw [pave_cons_of_ok first]
        exact now.trans ((ih after next).mono (namedFrom_of_paveStep first rest))

/-- A way that can be followed is one of directories. -/
theorem find?_of_walk (busy : ∀ step ∈ steps, Path.isIdle step = false)
    (walked : steps.foldlM tree.enter place = .ok reached) :
    ∀ other ∈ namedFrom place steps, tree.find? other = some .directory := by
  induction steps generalizing place with
  | nil => simp [namedFrom]
  | cons step rest ih =>
      rw [List.forall_mem_cons] at busy
      rw [List.foldlM_cons] at walked
      obtain ⟨next, entered, onward⟩ := Except.bind_eq_ok_iff.mp walked
      simp only [enter, busy.1, Bool.false_eq_true, if_false, beq_iff_eq] at entered
      rw [namedFrom]
      split at entered
      · cases entered
        rw [if_pos ‹_›]
        exact ih busy.2 onward
      · rw [if_neg ‹_›]
        split at entered
        · cases entered
        · split at entered
          · rename_i found
            cases entered
            rw [List.forall_mem_cons]
            exact ⟨found, ih busy.2 onward⟩
          · cases entered
          · cases entered

/-! ## Directories -/

theorem extends_ensured (tree : FileTree) (path : Path) :
    Extends (tree.wayTo path) tree (tree.ensured path).2 := by
  rw [ensured]
  split
  · exact .refl tree
  · rw [makeWay_snd fun _ member => Path.isIdle_of_mem_steps member]
    exact extends_pave tree (tree.start path) path.steps

theorem find?_of_ensured (made : tree.ensured path = (.ok (), after)) :
    ∀ place ∈ tree.wayTo path, after.find? place = some .directory := by
  obtain ⟨reached, walked⟩ := walk_of_ensured made
  have grows := grows_ensured (fun _ => False) tree path
  rw [made] at grows
  rw [start_of_grows grows] at walked
  exact find?_of_walk (fun _ member => Path.isIdle_of_mem_steps member) walked

theorem createDirectory_of_hasDirectory (there : tree.hasDirectory path = true) :
    tree.createDirectory path = .error .alreadyExists := by
  have status : tree.status path = .ok .directory := by
    rw [hasDirectory] at there
    split at there
    · assumption
    · cases there
  obtain ⟨target, reached, found⟩ := Except.bind_eq_ok_iff.mp status
  rw [createDirectory, reached]
  cases target with
  | directory place => rfl
  | named around name slash =>
      cases entry : tree.find? (name :: around) with
      | none =>
          simp only [entry] at found
          cases found
      | some entry =>
          simp only [bind, Except.bind, entry]
          rfl

/-- Nothing needs to be done for a directory that is there. -/
theorem ensured_of_hasDirectory (tidy : path.IsTidy) (there : tree.hasDirectory path = true) :
    tree.ensured path = (.ok (), tree) := by
  have ensure : tree.ensure path = (.ok (), tree) := by
    simp [FileTree.ensure, createDirectory_of_hasDirectory there, there]
  rw [← ensureFirst_directories tidy]
  cases found : path.parent? with
  | none =>
      have outermost : path.directories = [] := by
        rw [Path.directories]
        cases path.text.length <;> simp [Path.around, found]
      rw [outermost]
      rfl
  | some parent =>
      obtain ⟨around, outward⟩ := Path.directories_of_parent? found
      rw [outward, ensureFirst_of_ne_notFound (by simp [ensure]), ensure]

/-- A directory that could not be made sure of is not there. -/
theorem hasDirectory_of_ensured_error {cause : FileError} (tidy : path.IsTidy)
    (failed : tree.ensured path = (.error cause, after)) : after.hasDirectory path = false := by
  cases there : after.hasDirectory path with
  | false => rfl
  | true =>
      have grows : Grows (fun _ => False) (tree.ensured path).2 after := by
        rw [failed]
        exact .refl after
      obtain ⟨-, same | ⟨-, -, again⟩⟩ := ensured_again grows
      · rw [ensured_of_hasDirectory tidy there, failed] at same
        cases same
      · rw [ensured_of_hasDirectory tidy there] at again
        cases again

/-! ## Files -/

/-- A file was written with its directories, and nothing else changed: the file is at a place of its
own, the directories on the way to it are there, whether or not they were missing, and everything
else is as it was. -/
structure Writes (tree after : FileTree) (path directory : Path) (place : Location)
    (contents : ByteArray) : Prop where
  around : path.parent? = some directory
  reached : after.place? path = some place
  free : tree.isDirectory place = false
  apart : place ∉ tree.wayTo directory
  way : ∀ other ∈ tree.wayTo directory,
    tree.find? other = none ∨ tree.find? other = some .directory
  find? : ∀ other, after.find? other =
    if other = place then some (.file contents)
    else if other ∈ tree.wayTo directory then some .directory
    else tree.find? other
  workingDirectory : after.workingDirectory = tree.workingDirectory
  read : after.readFile path = .ok contents
  /-- Any other file is read as before, by whatever path. -/
  others : ∀ other bytes, tree.readFile other = .ok bytes →
    tree.place? other ≠ some place → after.readFile other = .ok bytes

theorem readFile_eq_ok_iff {bytes : ByteArray} :
    tree.readFile path = .ok bytes ↔ ∃ around name,
      tree.target path = .ok (.named around name false) ∧
        tree.find? (name :: around) = some (.file bytes) := by
  constructor
  · intro read
    obtain ⟨entry, status, held⟩ := Except.bind_eq_ok_iff.mp read
    cases entry with
    | directory => cases held
    | file other =>
        cases held
        obtain ⟨target, reached, found⟩ := Except.bind_eq_ok_iff.mp status
        cases target with
        | directory place => cases found
        | named around name slash =>
            simp only at found
            split at found
            · cases found
            · cases found
            · rename_i held
              split at found
              · cases found
              · rename_i plain
                cases found
                rw [Bool.eq_false_iff.mpr plain] at reached
                exact ⟨around, name, reached, held⟩
  · rintro ⟨around, name, reached, found⟩
    simp [readFile, status, reached, found, bind, Except.bind, pure, Except.pure]

/-- A file is read as before while its place holds what it did. -/
theorem Grows.readFile_eq {changed : Location → Prop} {bytes : ByteArray}
    (grows : Grows changed tree after) (read : tree.readFile path = .ok bytes)
    (kept : ∀ place, tree.place? path = some place → tree.find? place = some (.file bytes) →
      after.find? place = some (.file bytes)) : after.readFile path = .ok bytes := by
  obtain ⟨around, name, reached, found⟩ := readFile_eq_ok_iff.mp read
  have place : tree.place? path = some (name :: around) := by rw [place?, reached]
  refine readFile_eq_ok_iff.mpr ⟨around, name, ?_, kept _ place found⟩
  rw [grows.target_eq (by simp [reached]), reached]

variable {name : List Char} {contents : String} {result : Path}

/-- To put a file into a tree whose directories are in place is to write it with them. -/
theorem writes_insert {between : FileTree} {around : Location} {contents : ByteArray}
    (found : path.parent? = some directory)
    (extended : Extends (tree.wayTo directory) tree between)
    (made : ∀ place ∈ tree.wayTo directory, between.find? place = some .directory)
    (reached : between.target path = .ok (.named around name false))
    (free : between.isDirectory (name :: around) = false) :
    Writes tree (between.insert (name :: around) (.file contents)) path directory
      (name :: around) contents := by
  have apart : name :: around ∉ tree.wayTo directory := by
    intro within
    rw [isDirectory_iff.mpr (made _ within)] at free
    cases free
  have grows : Grows (fun _ => True) between (between.insert (name :: around) (.file contents)) :=
    .insert_file free contents trivial
  have target : (between.insert (name :: around) (.file contents)).target path =
      between.target path :=
    grows.target_eq (by simp [reached])
  have place : (between.insert (name :: around) (.file contents)).place? path =
      some (name :: around) := by
    rw [place?, target, reached]
  have find? : ∀ other, (between.insert (name :: around) (.file contents)).find? other =
      if other = name :: around then some (.file contents)
      else if other ∈ tree.wayTo directory then some .directory
      else tree.find? other := by
    intro other
    rw [find?_insert]
    split
    · rfl
    · split
      · exact made other ‹_›
      · exact extended.find?_of_not_mem ‹_›
  exact {
    around := found
    reached := place
    free := by rwa [isDirectory, ← extended.find?_of_not_mem apart]
    apart
    way := fun other within => extended.missing_or_directory (made other within)
    find?
    workingDirectory := extended.workingDirectory
    read := readFile_eq_ok_iff.mpr ⟨around, name, target.trans reached, by rw [find?, if_pos rfl]⟩
    others := by
      intro other bytes read elsewhere
      refine (extended.grows.trans grows).readFile_eq read ?_
      intro position stands held
      rw [stands, ne_eq, Option.some.injEq] at elsewhere
      rw [find?_insert, if_neg elsewhere]
      exact extended.find?_file_iff.mpr held }

theorem writes_of_writtenInto (ends : path.EndsIn name) (found : path.parent? = some directory)
    (wrote : tree.writtenInto path contents = (.ok result, after)) :
    result = path ∧ ∃ place, Writes tree after path directory place contents.toUTF8 := by
  have extended := extends_ensured tree directory
  rcases made : tree.ensured directory with ⟨error | done, between⟩
  · rw [writtenInto_of_error found made] at wrote
    cases wrote
  · rw [made] at extended
    rw [writtenInto_of_ok found made] at wrote
    cases reached : between.target path with
    | error error =>
        rw [written_of_target_error reached] at wrote
        cases wrote
    | ok target =>
        obtain ⟨around, rfl⟩ := exists_of_target ends reached
        rw [written_of_target reached] at wrote
        split at wrote
        · cases wrote
        · rename_i free
          cases wrote
          exact ⟨rfl, _,
            writes_insert found extended (find?_of_ensured made) reached (by simpa using free)⟩

/-- Where writing a file fails, it is for the directory around it or for the file itself, and
directories on the way are all that may have come to the tree. -/
theorem stops_of_writtenInto {error : EmitError} (found : path.parent? = some directory)
    (failed : tree.writtenInto path contents = (.error error, after)) :
    Extends (tree.wayTo directory) tree after ∧
      (error.path = directory ∧ tree.ensured directory = (.error error.cause, after) ∨
        error.path = path ∧ tree.ensured directory = (.ok (), after) ∧
          after.writeFile path contents.toUTF8 = .error error.cause) := by
  have extended := extends_ensured tree directory
  rcases made : tree.ensured directory with ⟨cause | done, between⟩
  · rw [writtenInto_of_error found made] at failed
    rw [made] at extended
    cases failed
    exact ⟨extended, .inl ⟨rfl, rfl⟩⟩
  · rw [writtenInto_of_ok found made, written] at failed
    rw [made] at extended
    split at failed
    · cases failed
    · cases failed
      exact ⟨extended, .inr ⟨rfl, rfl, ‹_›⟩⟩

theorem run_ensureDirectories (tidy : path.IsTidy) (tree : FileTree) :
    StateT.run (m := Id) (Files.ensureDirectories path) tree = tree.ensured path := by
  rw [Files.ensureDirectories, run_ensureFirst, ensureFirst_directories tidy]

end ApiBindings.FileTree
