import ApiBindings.Proofs.FileTree.Soundness

/-!
# Obstacles

A way that never turns back passes the places of its steps, one in the other, up to the first that
cannot be a directory.  In a sound tree nothing lies in a place where nothing is, so that only a
name that is too long can stand in a way behind something missing: no file is hidden there.
-/

namespace ApiBindings.FileTree

/-- What keeps a way from its end: the first of its steps that is too long, or at which a file
is. -/
def obstacle (tree : FileTree) (place : Location) : List (List Char) → Option FileError
  | [] => none
  | step :: rest =>
      if isTooLong step then some .nameTooLong
      else
        match tree.find? (step :: place) with
        | some (.file _) => some (if rest = [] then .alreadyExists else .notADirectory)
        | _ => tree.obstacle (step :: place) rest

/-- The places on a way before the first obstacle. -/
def passed (tree : FileTree) (place : Location) : List (List Char) → List Location
  | [] => []
  | step :: rest =>
      if isTooLong step then []
      else
        match tree.find? (step :: place) with
        | some (.file _) => []
        | _ => (step :: place) :: tree.passed (step :: place) rest

/-- A way on which no step turns back. -/
def Onward (steps : List (List Char)) : Prop :=
  ∀ step ∈ steps, Path.isIdle step = false ∧ step ≠ ['.', '.']

/-- Nothing lies in a place. -/
def IsBare (tree : FileTree) (place : Location) : Prop :=
  ∀ names, names ≠ [] → tree.find? (names ++ place) = none

variable {tree other : FileTree} {place : Location} {step : List Char} {steps : List (List Char)}

/-! ## Bare places -/

/-- Nothing lies where nothing is. -/
theorem IsSound.isBare (sound : tree.IsSound) (missing : tree.find? place = none) :
    tree.IsBare place := by
  intro names some
  induction names with
  | nil => exact absurd rfl some
  | cons name rest ih =>
      cases found : tree.find? (name :: rest ++ place) with
      | none => rfl
      | some entry =>
          have around := sound.around name (rest ++ place) (by simpa using found ▸ (by simp))
          rw [isDirectory_iff] at around
          cases rest with
          | nil => simp [missing] at around
          | cons second others =>
              rw [ih (by simp)] at around
              cases around

theorem IsBare.find? (bare : tree.IsBare place) (step : List Char) :
    tree.find? (step :: place) = none :=
  bare [step] (by simp)

theorem IsBare.cons (bare : tree.IsBare place) (step : List Char) :
    tree.IsBare (step :: place) := by
  intro names some
  have none := bare (names ++ [step]) (by simp)
  rwa [List.append_assoc] at none

/-- In a bare place only a name that is too long is an obstacle. -/
theorem IsBare.obstacle (bare : tree.IsBare place) :
    tree.obstacle place steps = none ∨ tree.obstacle place steps = some .nameTooLong := by
  induction steps generalizing place with
  | nil => exact .inl rfl
  | cons step rest ih =>
      rw [FileTree.obstacle]
      split
      · exact .inr rfl
      · simp only [bare.find? step]
        exact ih (bare.cons step)

/-! ## Ways with obstacles -/

section Ways

theorem Onward.head (onward : Onward (step :: steps)) :
    Path.isIdle step = false ∧ step ≠ ['.', '.'] :=
  onward step (by simp)

theorem Onward.tail (onward : Onward (step :: steps)) : Onward steps :=
  fun other member => onward other (by simp [member])

theorem Onward.busy (onward : Onward steps) : ∀ step ∈ steps, Path.isIdle step = false :=
  fun step member => (onward step member).1

theorem enter_of_onward (onward : Onward (step :: steps)) :
    tree.enter place step =
      if isTooLong step then .error .nameTooLong
      else
        match tree.find? (step :: place) with
        | some .directory => .ok (step :: place)
        | some (.file _) => .error .notADirectory
        | none => .error .notFound := by
  obtain ⟨busy, notBack⟩ := onward.head
  have busyToo : ¬ Path.isIdle step = true := by simp [busy]
  have onwardToo : ¬ (step == ['.', '.']) = true := by simpa using notBack
  exact (if_neg busyToo).trans (if_neg onwardToo)

/-- The obstacle of a way fits what comes of following the way to its last step. -/
def Fits : Except FileError Location → Option FileError → Prop
  | .ok _, obstacle => obstacle ≠ some .notADirectory
  | .error .notFound, obstacle => obstacle = none ∨ obstacle = some .nameTooLong
  | .error error, obstacle => obstacle = some error

theorem fits_obstacle (place : Location) (sound : tree.IsSound) (onward : Onward steps) :
    Fits (steps.dropLast.foldlM tree.enter place) (tree.obstacle place steps) := by
  induction steps generalizing place with
  | nil => simp [obstacle, Fits, pure, Except.pure]
  | cons step rest ih =>
      cases rest with
      | nil =>
          simp only [List.dropLast_singleton, List.foldlM_nil, pure, Except.pure, Fits, obstacle]
          split
          · simp
          · split <;> simp
      | cons second others =>
          rw [List.dropLast_cons_cons, List.foldlM_cons, enter_of_onward onward, obstacle]
          split
          · rfl
          · cases found : tree.find? (step :: place) with
            | none => exact (sound.isBare found).obstacle
            | some entry =>
                cases entry with
                | file contents =>
                    simp only [List.cons_ne_nil, if_false]
                    rfl
                | directory => exact ih (step :: place) onward.tail

/-! ## Paving -/

/-- What comes of a way with an obstacle or without one. -/
def resultOf : Option FileError → Except FileError Unit
  | none => .ok ()
  | some error => .error error

/-- Only what lies in a place matters to a way from there. -/
theorem obstacle_congr
    (same : ∀ names, names ≠ [] → other.find? (names ++ place) = tree.find? (names ++ place)) :
    other.obstacle place steps = tree.obstacle place steps ∧
      other.passed place steps = tree.passed place steps := by
  induction steps generalizing place with
  | nil => exact ⟨rfl, rfl⟩
  | cons step rest ih =>
      have here : other.find? (step :: place) = tree.find? (step :: place) := same [step] (by simp)
      have inside : ∀ names, names ≠ [] →
          other.find? (names ++ step :: place) = tree.find? (names ++ step :: place) := by
        intro names some
        have there := same (names ++ [step]) (by simp)
        rwa [List.append_assoc] at there
      have further := ih inside
      simp only [obstacle, passed, here, further.1, further.2]
      exact ⟨trivial, trivial⟩

/-- What is put at a place does not matter to a way from there. -/
theorem obstacle_insert (tree : FileTree) (place : Location) (step : List Char)
    (steps : List (List Char)) (entry : FileEntry) :
    (tree.insert (step :: place) entry).obstacle (step :: place) steps =
        tree.obstacle (step :: place) steps ∧
      (tree.insert (step :: place) entry).passed (step :: place) steps =
        tree.passed (step :: place) steps := by
  apply obstacle_congr
  intro names some
  rw [find?_insert, if_neg]
  intro same
  have length := congrArg List.length same
  simp only [List.length_append, List.length_cons] at length
  exact some (List.length_eq_zero_iff.mp (by omega))

/-- What a step that does not turn back meets, and what is left of it. -/
inductive Step (tree : FileTree) (place : Location) (step : List Char) :
    Except FileError Location × FileTree → Prop where
  | long (long : isTooLong step = true) : Step tree place step (.error .nameTooLong, tree)
  | file (short : isTooLong step = false) (contents : ByteArray)
      (found : tree.find? (step :: place) = some (.file contents)) :
      Step tree place step (.error .alreadyExists, tree)
  | directory (short : isTooLong step = false)
      (found : tree.find? (step :: place) = some .directory) :
      Step tree place step (.ok (step :: place), tree)
  | created (short : isTooLong step = false) (missing : tree.find? (step :: place) = none) :
      Step tree place step (.ok (step :: place), tree.insert (step :: place) .directory)

theorem step_paveStep (tree : FileTree) (place : Location) (onward : Onward (step :: steps)) :
    Step tree place step (tree.paveStep place step) := by
  rw [paveStep, if_neg onward.head.2]
  split
  · exact .long ‹_›
  · have short : isTooLong step = false := by simpa using ‹¬ isTooLong step = true›
    cases found : tree.find? (step :: place) with
    | none => exact .created short found
    | some entry =>
        cases entry with
        | directory => exact .directory short found
        | file contents => exact .file short contents found

/-- A way is paved up to its obstacle. -/
theorem paved_fst (onward : Onward steps) (file : tree.obstacle place steps ≠ some .notADirectory) :
    (tree.paved place steps).1 = resultOf (tree.obstacle place steps) := by
  rw [paved]
  induction steps generalizing tree place with
  | nil => rfl
  | cons step rest ih =>
      rw [obstacle] at file ⊢
      have taken := step_paveStep tree place onward
      generalize first : tree.paveStep place step = result at taken
      cases taken with
      | long long =>
          rw [if_pos long, pave_cons_of_error first]
          rfl
      | file short contents found =>
          simp only [short, Bool.false_eq_true, if_false, found] at file ⊢
          rw [pave_cons_of_error first]
          split at file
          · simp [*, resultOf, Except.map]
          · exact absurd rfl file
      | directory short found =>
          simp only [short, Bool.false_eq_true, if_false, found] at file ⊢
          rw [pave_cons_of_ok first]
          exact ih onward.tail file
      | created short missing =>
          simp only [short, Bool.false_eq_true, if_false, missing] at file ⊢
          have still := (obstacle_insert tree place step rest .directory).1
          rw [pave_cons_of_ok first, ← still]
          exact ih onward.tail (still ▸ file)

/-- The places before the obstacle are directories after that, and the others stay as they are. -/
theorem find?_pave (onward : Onward steps) (location : Location) :
    (tree.pave place steps).2.find? location =
      if location ∈ tree.passed place steps then some .directory else tree.find? location := by
  induction steps generalizing tree place with
  | nil => rfl
  | cons step rest ih =>
      rw [passed]
      have taken := step_paveStep tree place onward
      generalize first : tree.paveStep place step = result at taken
      cases taken with
      | long long => simp [pave_cons_of_error first, long]
      | file short contents found => simp [pave_cons_of_error first, short, found]
      | directory short found =>
          rw [pave_cons_of_ok first, ih onward.tail]
          by_cases here : location = step :: place
          · simp [short, here, found]
          · simp [short, here, found]
      | created short missing =>
          have still := (obstacle_insert tree place step rest .directory).2
          rw [pave_cons_of_ok first, ih onward.tail, still]
          by_cases here : location = step :: place
          · simp [short, here, missing]
          · simp [short, here, missing]

/-! ## Making way -/

/-- A way in a sound tree can be made unless there is an obstacle, which is what is reported. -/
theorem makeWay_fst (place : Location) (sound : tree.IsSound) (onward : Onward steps) :
    (tree.makeWay place steps).1 = resultOf (tree.obstacle place steps) := by
  have fits := fits_obstacle place sound onward
  rcases blocked_or_open tree place steps.dropLast with ⟨error, there, blocked⟩ | missing
  · rw [makeWay_of_blocked blocked there]
    rw [blocked] at fits
    cases error
    case notFound => exact absurd rfl there
    all_goals rw [show tree.obstacle place steps = _ from fits]; rfl
  · rw [makeWay_of_open missing, paved_fst onward]
    cases walked : steps.dropLast.foldlM tree.enter place with
    | ok reached =>
        rw [walked] at fits
        exact fits
    | error error =>
        rw [walked, missing error walked] at fits
        rcases fits with none | long
        · simp [none]
        · simp [long]

theorem find?_makeWay (onward : Onward steps) (location : Location) :
    (tree.makeWay place steps).2.find? location =
      if location ∈ tree.passed place steps then some .directory else tree.find? location := by
  rw [makeWay_snd onward.busy, find?_pave onward]

/-- No file is hidden on the ways of a sound tree that never turn back. -/
theorem not_hidden (sound : tree.IsSound) (onward : Onward steps) : ¬ tree.Hidden place steps := by
  rintro ⟨missing, file⟩
  have fits := fits_obstacle place sound onward
  rw [missing] at fits
  have result : (tree.paved place steps).1 = .error .alreadyExists := by
    rw [paved, file]
    rfl
  rcases fits with none | long
  · rw [paved_fst onward (by simp [none]), none] at result
    cases result
  · rw [paved_fst onward (by simp [long]), long] at result
    cases result

end Ways

end ApiBindings.FileTree
