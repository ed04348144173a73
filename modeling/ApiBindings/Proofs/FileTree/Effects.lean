import ApiBindings.Proofs.FileTree.Obstacles

/-!
# What writing does to a tree

Writing a file by a path that never turns back, told place by place: the directories on the way are
there up to the first obstacle, the file is there if nothing kept it from being written, and all
else is as before.  What is reported and what is put depends on little of the tree: on where there
are files on the way, and on what is at the place of the file.  Writing another file touches
neither, unless one of the two would lie in the other.
-/

namespace ApiBindings.FileTree

/-- A text for a file, which is named in a directory. -/
structure Writing where
  path : Path
  directory : Path
  name : List Char
  text : String

namespace Writing

/-- A file whose path never turns back on the way to its directory. -/
structure IsStraight (writing : Writing) : Prop where
  ends : writing.path.EndsIn writing.name
  around : writing.path.parent? = some writing.directory
  onward : Onward writing.directory.steps

/-- The steps to a file. -/
def steps (writing : Writing) : List (List Char) :=
  writing.directory.steps ++ [writing.name]

/-- Two files that start from one place, and of which neither is on the way to the other. -/
structure Apart (first second : Writing) : Prop where
  start : first.directory.isAbsolute = second.directory.isAbsolute
  notBefore : ¬ first.steps <+: second.steps
  notBehind : ¬ second.steps <+: first.steps

theorem Apart.symm {first second : Writing} (apart : Apart first second) : Apart second first :=
  ⟨apart.start.symm, apart.notBehind, apart.notBefore⟩

end Writing

/-- The place of a file. -/
def placeOf (tree : FileTree) (writing : Writing) : Location :=
  writing.name :: (writing.directory.steps.reverse ++ tree.start writing.directory)

/-- The places that are passed on the way to a file. -/
def passedBy (tree : FileTree) (writing : Writing) : List Location :=
  match checkDirectory writing.directory with
  | .ok () => tree.passed (tree.start writing.directory) writing.directory.steps
  | .error _ => []

/-- What writing a file reports if nothing is in the way to its directory. -/
def fileReport (tree : FileTree) (writing : Writing) : Except EmitError Path :=
  match checkPath writing.path with
  | .error error => .error ⟨writing.path, error⟩
  | .ok () =>
      if isTooLong writing.name then .error ⟨writing.path, .nameTooLong⟩
      else if tree.isDirectory (tree.placeOf writing) then .error ⟨writing.path, .isADirectory⟩
      else .ok writing.path

/-- What writing a file reports. -/
def report (tree : FileTree) (writing : Writing) : Except EmitError Path :=
  match checkDirectory writing.directory with
  | .error error => .error ⟨writing.directory, error⟩
  | .ok () =>
      match tree.obstacle (tree.start writing.directory) writing.directory.steps with
      | some error => .error ⟨writing.directory, error⟩
      | none => tree.fileReport writing

/-- What writing a file puts at a place. -/
def put (tree : FileTree) (writing : Writing) (place : Location) : Option FileEntry :=
  if place ∈ tree.passedBy writing then some .directory
  else if (tree.report writing).isOk ∧ place = tree.placeOf writing then
    some (.file writing.text.toUTF8)
  else none

variable {tree other : FileTree} {writing first second : Writing} {place : Location}
  {steps : List (List Char)}

/-! ## Ways -/

/-- What is passed on a way is a place on it. -/
theorem exists_prefix_of_mem_passed {reached : Location}
    (member : reached ∈ tree.passed place steps) :
    ∃ before, before <+: steps ∧ reached = before.reverse ++ place := by
  induction steps generalizing place with
  | nil => cases member
  | cons step rest ih =>
      rw [passed] at member
      split at member
      · cases member
      · split at member
        · cases member
        · rw [List.mem_cons] at member
          rcases member with rfl | further
          · exact ⟨[step], by simp, by simp⟩
          · obtain ⟨before, beginning, rfl⟩ := ih further
            exact ⟨step :: before, (List.prefix_cons_inj step).mpr beginning, by simp⟩

/-- What is passed on a way is not a file. -/
theorem find?_of_mem_passed {reached : Location} (member : reached ∈ tree.passed place steps)
    (contents : ByteArray) : tree.find? reached ≠ some (.file contents) := by
  induction steps generalizing place with
  | nil => cases member
  | cons step rest ih =>
      rw [passed] at member
      split at member
      · cases member
      · split at member
        · cases member
        · rename_i notFile
          rw [List.mem_cons] at member
          rcases member with rfl | further
          · exact notFile contents
          · exact ih further

/-- An onward way leads to the place of its steps. -/
theorem eq_of_walk {reached : Location} (onward : Onward steps)
    (walked : steps.foldlM tree.enter place = .ok reached) : reached = steps.reverse ++ place := by
  induction steps generalizing place with
  | nil =>
      cases walked
      rfl
  | cons step rest ih =>
      rw [List.foldlM_cons] at walked
      obtain ⟨next, entered, further⟩ := Except.bind_eq_ok_iff.mp walked
      rw [enter_of_onward onward] at entered
      have next_eq : next = step :: place := by
        split at entered
        · cases entered
        · split at entered <;> cases entered
          rfl
      subst next_eq
      rw [ih onward.tail further]
      simp

/-- There is a file at a place. -/
def HasFile (tree : FileTree) (place : Location) : Prop :=
  ∃ contents, tree.find? place = some (.file contents)

theorem obstacle_cons_of_not_hasFile (steps : List (List Char)) {step : List Char}
    (short : ¬ isTooLong step = true)
    (none : ¬ tree.HasFile (step :: place)) :
    tree.obstacle place (step :: steps) = tree.obstacle (step :: place) steps ∧
      tree.passed place (step :: steps) = (step :: place) :: tree.passed (step :: place) steps := by
  rw [obstacle, passed, if_neg short, if_neg short]
  cases found : tree.find? (step :: place) with
  | none => exact ⟨rfl, rfl⟩
  | some entry =>
      cases entry with
      | directory => exact ⟨rfl, rfl⟩
      | file contents => exact absurd ⟨contents, found⟩ none

/-- Of the places on a way, only those of files matter. -/
theorem obstacle_of_hasFile
    (same : ∀ before, before <+: steps →
      (other.HasFile (before.reverse ++ place) ↔ tree.HasFile (before.reverse ++ place))) :
    other.obstacle place steps = tree.obstacle place steps ∧
      other.passed place steps = tree.passed place steps := by
  induction steps generalizing place with
  | nil => exact ⟨rfl, rfl⟩
  | cons step rest ih =>
      have here : other.HasFile (step :: place) ↔ tree.HasFile (step :: place) :=
        same [step] (by simp)
      have inside : ∀ before, before <+: rest →
          (other.HasFile (before.reverse ++ step :: place) ↔
            tree.HasFile (before.reverse ++ step :: place)) := by
        intro before beginning
        have there := same (step :: before) ((List.prefix_cons_inj step).mpr beginning)
        simpa using there
      obtain ⟨obstacles, passes⟩ := ih inside
      by_cases long : isTooLong step = true
      · simp [obstacle, passed, long]
      · by_cases file : tree.HasFile (step :: place)
        · obtain ⟨contents, found⟩ := here.mpr file
          obtain ⟨held, foundToo⟩ := file
          simp [obstacle, passed, found, foundToo]
        · obtain ⟨obstacleHere, passedHere⟩ := obstacle_cons_of_not_hasFile rest long file
          obtain ⟨obstacleThere, passedThere⟩ := obstacle_cons_of_not_hasFile rest long
            (fun file' => file (here.mp file'))
          rw [obstacleHere, passedHere, obstacleThere, passedThere, obstacles, passes]
          exact ⟨rfl, rfl⟩

/-! ## Writing -/

theorem eq_some_of_resultOf {obstacle : Option FileError} {error : FileError}
    (result : resultOf obstacle = .error error) : obstacle = some error := by
  cases obstacle with
  | none => cases result
  | some other =>
      cases result
      rfl

theorem eq_none_of_resultOf {obstacle : Option FileError} (result : resultOf obstacle = .ok ()) :
    obstacle = none := by
  cases obstacle with
  | none => rfl
  | some other => cases result

theorem mem_passedBy :
    place ∈ tree.passedBy writing ↔ checkDirectory writing.directory = .ok () ∧
      place ∈ tree.passed (tree.start writing.directory) writing.directory.steps := by
  rw [passedBy]
  split <;> simp [*]

/-- A file is not passed on the way to it. -/
theorem placeOf_not_mem_passedBy (tree : FileTree) (writing : Writing) :
    tree.placeOf writing ∉ tree.passedBy writing := by
  intro member
  obtain ⟨-, member⟩ := mem_passedBy.mp member
  obtain ⟨before, beginning, same⟩ := exists_prefix_of_mem_passed member
  have length := congrArg List.length same
  have shorter := beginning.length_le
  simp only [placeOf, List.length_cons, List.length_append, List.length_reverse] at length
  omega

/-- What is put where nothing but the way is put. -/
theorem put_of_error {error : EmitError} (failed : tree.report writing = .error error) :
    tree.put writing place =
      if place ∈ tree.passedBy writing then some .directory else none := by
  simp [put, failed, Except.isOk, Except.toBool]

theorem put_of_ok {path : Path} (written : tree.report writing = .ok path) :
    tree.put writing place =
      if place ∈ tree.passedBy writing then some .directory
      else if place = tree.placeOf writing then some (.file writing.text.toUTF8) else none := by
  simp [put, written, Except.isOk, Except.toBool]

/-- The tree after the way is made, if nothing is written. -/
theorem find?_of_unwritten {after : FileTree} {error : EmitError}
    (found : ∀ place, after.find? place =
      if place ∈ tree.passedBy writing then some .directory else tree.find? place)
    (failed : tree.report writing = .error error) (place : Location) :
    after.find? place = (tree.put writing place).or (tree.find? place) := by
  rw [put_of_error failed, found]
  split <;> rfl

/-- The tree after the file is written at the end of the way. -/
theorem find?_of_written {after : FileTree} {path : Path}
    (found : ∀ place, after.find? place =
      if place ∈ tree.passedBy writing then some .directory else tree.find? place)
    (done : tree.report writing = .ok path) (place : Location) :
    (after.insert (tree.placeOf writing) (.file writing.text.toUTF8)).find? place =
      (tree.put writing place).or (tree.find? place) := by
  have inserted := find?_insert after writing.name (tree.placeOf writing).tail place
    (.file writing.text.toUTF8)
  have here : writing.name :: (tree.placeOf writing).tail = tree.placeOf writing := rfl
  rw [here] at inserted
  rw [put_of_ok done, inserted, found]
  by_cases file : place = tree.placeOf writing
  · rw [file, if_pos rfl, if_neg (placeOf_not_mem_passedBy tree writing), if_pos rfl]
    rfl
  · rw [if_neg file, if_neg file]
    split <;> rfl

section Straight

variable (straight : writing.IsStraight)

include straight

/-- With the directory in place, the path stands for the file. -/
theorem target_of_isStraight {after : FileTree}
    (made : tree.ensured writing.directory = (.ok (), after))
    (legal : checkPath writing.path = .ok ()) :
    after.target writing.path =
      if isTooLong writing.name then .error .nameTooLong
      else .ok (.named (tree.placeOf writing).tail writing.name false) := by
  obtain ⟨reached, walked⟩ := walk_of_ensured made
  have grows := grows_ensured (fun _ => False) tree writing.directory
  rw [made] at grows
  have place := eq_of_walk straight.onward walked
  rw [start_of_grows grows] at place
  rw [target_of_endsIn straight.ends straight.around legal, walked, place]
  rfl

/-- With the directory in place, the file is written unless its path or what is at its place keeps
it from that. -/
theorem written_of_isStraight {after : FileTree}
    (made : tree.ensured writing.directory = (.ok (), after))
    (legal : checkDirectory writing.directory = .ok ())
    (clear : tree.obstacle (tree.start writing.directory) writing.directory.steps = none)
    (found : ∀ place, after.find? place =
      if place ∈ tree.passedBy writing then some .directory else tree.find? place) :
    (after.written writing.path writing.text).1 = tree.report writing ∧
      ∀ place, (after.written writing.path writing.text).2.find? place =
        (tree.put writing place).or (tree.find? place) := by
  have reports : tree.report writing = tree.fileReport writing := by
    rw [report, legal, clear]
  have unwritten : ∀ error, tree.report writing = .error ⟨writing.path, error⟩ →
      after.written writing.path writing.text = (.error ⟨writing.path, error⟩, after) →
      (after.written writing.path writing.text).1 = tree.report writing ∧
        ∀ place, (after.written writing.path writing.text).2.find? place =
          (tree.put writing place).or (tree.find? place) := by
    intro error failed missed
    rw [missed]
    exact ⟨failed.symm, find?_of_unwritten found failed⟩
  cases spelled : checkPath writing.path with
  | error error =>
      apply unwritten error
      · rw [reports, fileReport, spelled]
      · apply written_of_target_error
        rw [target, spelled]
        rfl
  | ok checked =>
      have reached := target_of_isStraight straight made spelled
      by_cases long : isTooLong writing.name = true
      · rw [if_pos long] at reached
        apply unwritten .nameTooLong
        · rw [reports, fileReport, spelled]
          simp only [long, if_true]
        · exact written_of_target_error reached
      · rw [if_neg long] at reached
        have same : after.isDirectory (tree.placeOf writing) =
            tree.isDirectory (tree.placeOf writing) := by
          have kept := found (tree.placeOf writing)
          rw [if_neg (placeOf_not_mem_passedBy tree writing)] at kept
          rw [isDirectory, isDirectory, kept]
        have wrote : after.written writing.path writing.text =
            if after.isDirectory (tree.placeOf writing) then
              (.error ⟨writing.path, .isADirectory⟩, after)
            else (.ok writing.path,
              after.insert (tree.placeOf writing) (.file writing.text.toUTF8)) :=
          written_of_target reached
        rw [same] at wrote
        cases taken : tree.isDirectory (tree.placeOf writing) with
        | true =>
            rw [taken, if_pos rfl] at wrote
            apply unwritten .isADirectory _ wrote
            rw [reports, fileReport, spelled]
            simp [long, taken]
        | false =>
            rw [taken] at wrote
            have done : tree.report writing = .ok writing.path := by
              rw [reports, fileReport, spelled]
              simp [long, taken]
            rw [wrote]
            exact ⟨done.symm, find?_of_written found done⟩

end Straight

/-- Writing a file reports what stands in its way, and puts what is passed and the file. -/
theorem writtenInto_of_isStraight (straight : writing.IsStraight) (sound : tree.IsSound) :
    (tree.writtenInto writing.path writing.text).1 = tree.report writing ∧
      ∀ place, (tree.writtenInto writing.path writing.text).2.find? place =
        (tree.put writing place).or (tree.find? place) := by
  cases legal : checkDirectory writing.directory with
  | error error =>
      have made : tree.ensured writing.directory = (.error error, tree) := by
        rw [ensured, legal]
      have failed : tree.report writing = .error ⟨writing.directory, error⟩ := by
        rw [report, legal]
      rw [writtenInto_of_error straight.around made, failed]
      refine ⟨rfl, fun place => ?_⟩
      rw [put_of_error failed, passedBy, legal]
      simp
  | ok checked =>
      have way : tree.ensured writing.directory =
          tree.makeWay (tree.start writing.directory) writing.directory.steps := by
        rw [ensured, legal]
      have result := makeWay_fst (tree.start writing.directory) sound straight.onward
      have found : ∀ place, (tree.ensured writing.directory).2.find? place =
          if place ∈ tree.passedBy writing then some .directory else tree.find? place := by
        intro place
        rw [way, find?_makeWay straight.onward, passedBy, legal]
      rw [← way] at result
      rcases made : tree.ensured writing.directory with ⟨error | done, after⟩
      · rw [made] at result found
        have failed : tree.report writing = .error ⟨writing.directory, error⟩ := by
          rw [report, legal]
          simp only [eq_some_of_resultOf result.symm]
        rw [writtenInto_of_error straight.around made]
        exact ⟨failed.symm, find?_of_unwritten found failed⟩
      · rw [made] at result found
        rw [writtenInto_of_ok straight.around made]
        exact written_of_isStraight straight made legal (eq_none_of_resultOf result.symm) found

/-! ## Several files -/

/-- What is put at a place is a directory that is passed, or the file. -/
theorem put_eq_some {entry : FileEntry} (there : tree.put writing place = some entry) :
    place ∈ tree.passedBy writing ∧ entry = .directory ∨
      place = tree.placeOf writing ∧ entry = .file writing.text.toUTF8 := by
  rw [put] at there
  split at there
  · rename_i passed
    exact .inl ⟨passed, (Option.some.inj there).symm⟩
  · split at there
    · rename_i file
      exact .inr ⟨file.2, (Option.some.inj there).symm⟩
    · cases there

theorem placeOf_eq (tree : FileTree) (writing : Writing) :
    tree.placeOf writing = writing.steps.reverse ++ tree.start writing.directory := by
  simp [placeOf, Writing.steps]

namespace Writing.Apart

variable (apart : Apart first second)

include apart

theorem start_eq (tree : FileTree) : tree.start first.directory = tree.start second.directory := by
  rw [FileTree.start, FileTree.start, apart.start]

/-- A file is not on the way to another one. -/
theorem placeOf_ne {before : List (List Char)} (beginning : before <+: second.steps) :
    tree.placeOf first ≠ before.reverse ++ tree.start second.directory := by
  intro same
  rw [placeOf_eq, apart.start_eq] at same
  have steps := List.reverse_inj.mp (List.append_cancel_right same)
  exact apart.notBefore (steps ▸ beginning)

theorem placeOf_not_mem : tree.placeOf first ∉ tree.passedBy second := by
  intro member
  obtain ⟨before, beginning, same⟩ := exists_prefix_of_mem_passed (mem_passedBy.mp member).2
  exact apart.placeOf_ne (beginning.trans (List.prefix_append _ _)) same

/-- What two writings put at one place is the same. -/
theorem put_unique {entry otherEntry : FileEntry} (there : tree.put first place = some entry)
    (thereToo : tree.put second place = some otherEntry) : entry = otherEntry := by
  rcases put_eq_some there with ⟨passed, rfl⟩ | ⟨rfl, rfl⟩
  · rcases put_eq_some thereToo with ⟨-, rfl⟩ | ⟨rfl, -⟩
    · rfl
    · exact absurd passed apart.symm.placeOf_not_mem
  · rcases put_eq_some thereToo with ⟨passed, -⟩ | ⟨same, -⟩
    · exact absurd passed apart.placeOf_not_mem
    · rw [placeOf_eq tree second] at same
      exact absurd same (apart.placeOf_ne List.prefix_rfl)

end Writing.Apart

/-- Two trees that are alike for the writing of a file: there are files at the same places on the
way, and the same is at the place of the file. -/
structure Alike (writing : Writing) (tree other : FileTree) : Prop where
  start : other.start writing.directory = tree.start writing.directory
  files : ∀ before, before <+: writing.directory.steps →
    (other.HasFile (before.reverse ++ tree.start writing.directory) ↔
      tree.HasFile (before.reverse ++ tree.start writing.directory))
  place : other.find? (tree.placeOf writing) = tree.find? (tree.placeOf writing)

namespace Alike

variable (alike : Alike writing tree other)

include alike

theorem placeOf_eq : other.placeOf writing = tree.placeOf writing := by
  rw [placeOf, placeOf, alike.start]

theorem passedBy_eq : other.passedBy writing = tree.passedBy writing := by
  rw [passedBy, passedBy, alike.start, (obstacle_of_hasFile alike.files).2]

/-- The same is reported in trees that are alike. -/
theorem report_eq : other.report writing = tree.report writing := by
  have file : other.fileReport writing = tree.fileReport writing := by
    rw [fileReport, fileReport, alike.placeOf_eq, isDirectory, isDirectory, alike.place]
  rw [report, report, alike.start, (obstacle_of_hasFile alike.files).1, file]

/-- The same is put in trees that are alike. -/
theorem put_eq : other.put writing = tree.put writing := by
  funext place
  rw [put, put, alike.passedBy_eq, alike.report_eq, alike.placeOf_eq]

end Alike

/-- After a file is written, the tree is alike for the writing of a file apart from it. -/
theorem alike_of_apart (apart : Writing.Apart first second)
    (workingDirectory : other.workingDirectory = tree.workingDirectory)
    (found : ∀ place, other.find? place = (tree.put first place).or (tree.find? place)) :
    Alike second tree other where
  start := by rw [start, start, workingDirectory]
  files := by
    intro before beginning
    rw [HasFile, HasFile, found]
    cases there : tree.put first (before.reverse ++ tree.start second.directory) with
    | none => rfl
    | some entry =>
        rcases put_eq_some there with ⟨passed, rfl⟩ | ⟨same, -⟩
        · have notFile := find?_of_mem_passed (mem_passedBy.mp passed).2
          simp [notFile]
        · exact absurd same.symm
            (apart.placeOf_ne (beginning.trans (List.prefix_append _ _)))
  place := by
    rw [found]
    cases there : tree.put first (tree.placeOf second) with
    | none => rfl
    | some entry =>
        rcases put_eq_some there with ⟨passed, -⟩ | ⟨same, -⟩
        · exact absurd passed apart.symm.placeOf_not_mem
        · rw [FileTree.placeOf_eq tree second] at same
          exact absurd same.symm (apart.placeOf_ne List.prefix_rfl)

end ApiBindings.FileTree
