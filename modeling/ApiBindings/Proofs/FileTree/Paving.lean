import ApiBindings.Proofs.FileTree.Execution
import ApiBindings.Proofs.FileTree.Growth
import ApiBindings.Proofs.Path.Steps

/-!
# Paved ways

A way through a tree is paved step by step: every directory that is missing is created, until
something stands in the way.  A way that was paved can be followed in every tree that grows out of
it, and one that was blocked stays blocked, so that to pave it again changes nothing.
-/

namespace ApiBindings.FileTree

/-- Go on by one step from a directory, and create the next directory if it is missing. -/
def paveStep (tree : FileTree) (place : Location) (step : List Char) :
    Except FileError Location × FileTree :=
  if step = ['.', '.'] then (.ok place.tail, tree)
  else if isTooLong step then (.error .nameTooLong, tree)
  else
    match tree.find? (step :: place) with
    | some .directory => (.ok (step :: place), tree)
    | some (.file _) => (.error .alreadyExists, tree)
    | none => (.ok (step :: place), tree.insert (step :: place) .directory)

/-- Go on step by step from a directory, and create the directories that are missing. -/
def pave (tree : FileTree) (place : Location) :
    List (List Char) → Except FileError Location × FileTree
  | [] => (.ok place, tree)
  | step :: rest =>
      match tree.paveStep place step with
      | (.ok next, after) => after.pave next rest
      | (.error error, after) => (.error error, after)

/-! ## Single steps -/

variable {changed : Location → Prop} {tree after later : FileTree} {place reached : Location}
  {step : List Char}

theorem grows_paveStep (changed : Location → Prop) (tree : FileTree) (place : Location)
    (step : List Char) : Grows changed tree (tree.paveStep place step).2 := by
  rw [paveStep]
  split
  · exact .refl tree
  · split
    · exact .refl tree
    · split
      · exact .refl tree
      · exact .refl tree
      · rename_i missing
        exact .insert_directory missing

/-- A step that can be taken needs no paving. -/
theorem paveStep_of_enter (busy : Path.isIdle step = false)
    (entered : tree.enter place step = .ok reached) :
    tree.paveStep place step = (.ok reached, tree) := by
  simp only [enter, busy, Bool.false_eq_true, if_false, beq_iff_eq] at entered
  rw [paveStep]
  split at entered
  · cases entered
    rw [if_pos ‹_›]
  · rw [if_neg ‹_›]
    split at entered
    · cases entered
    · rw [if_neg ‹_›]
      cases found : tree.find? (step :: place) with
      | none =>
          rw [found] at entered
          cases entered
      | some entry =>
          rw [found] at entered
          cases entry with
          | directory =>
              cases entered
              rfl
          | file _ => cases entered

/-- What a step reports that is blocked, from what is found on the way. -/
inductive Reports : FileError → FileError → Prop where
  | same (error : FileError) : Reports error error
  | file : Reports .notADirectory .alreadyExists

theorem exists_paveStep_of_enter_error (busy : Path.isIdle step = false) {error : FileError}
    (blocked : tree.enter place step = .error error) (there : error ≠ .notFound) :
    ∃ report, Reports error report ∧ tree.paveStep place step = (.error report, tree) := by
  simp only [enter, busy, Bool.false_eq_true, if_false, beq_iff_eq] at blocked
  rw [paveStep]
  split at blocked
  · cases blocked
  · rw [if_neg ‹_›]
    split at blocked
    · cases blocked
      rw [if_pos ‹_›]
      exact ⟨_, .same _, rfl⟩
    · rw [if_neg ‹_›]
      cases found : tree.find? (step :: place) with
      | none =>
          rw [found] at blocked
          cases blocked
          exact absurd rfl there
      | some entry =>
          rw [found] at blocked
          cases entry with
          | directory => cases blocked
          | file _ =>
              cases blocked
              exact ⟨_, .file, rfl⟩

/-- A step that was paved can be taken from then on. -/
theorem enter_of_paveStep (paved : tree.paveStep place step = (.ok reached, after))
    (busy : Path.isIdle step = false) (grows : Grows changed after later) :
    later.enter place step = .ok reached := by
  simp only [enter, busy, Bool.false_eq_true, if_false, beq_iff_eq]
  rw [paveStep] at paved
  split at paved
  · cases paved
    rw [if_pos ‹_›]
  · rw [if_neg ‹_›]
    split at paved
    · cases paved
    · rw [if_neg ‹_›]
      split at paved
      · rename_i found
        cases paved
        rw [grows.directory _ found]
      · cases paved
      · cases paved
        rw [grows.directory _ (by rw [find?_insert, if_pos rfl])]

/-- A step that was blocked stays so, and reports the same. -/
theorem paveStep_of_error {error : FileError}
    (blocked : tree.paveStep place step = (.error error, after))
    (grows : Grows changed after later) :
    after = tree ∧ later.paveStep place step = (.error error, later) := by
  rw [paveStep] at blocked ⊢
  split at blocked
  · cases blocked
  · rw [if_neg ‹_›]
    split at blocked
    · cases blocked
      rw [if_pos ‹_›]
      exact ⟨rfl, rfl⟩
    · rw [if_neg ‹_›]
      split at blocked
      · cases blocked
      · rename_i found
        cases blocked
        obtain ⟨other, foundLater, -⟩ := grows.file _ _ found
        rw [foundLater]
        exact ⟨rfl, rfl⟩
      · cases blocked

/-! ## Ways -/

variable {steps : List (List Char)}

theorem pave_cons_of_ok (first : tree.paveStep place step = (.ok reached, after))
    (rest : List (List Char)) : tree.pave place (step :: rest) = after.pave reached rest := by
  rw [pave, first]

theorem pave_cons_of_error {error : FileError}
    (first : tree.paveStep place step = (.error error, after)) (rest : List (List Char)) :
    tree.pave place (step :: rest) = (.error error, after) := by
  rw [pave, first]

theorem pave_append (tree : FileTree) (place : Location) (first second : List (List Char)) :
    tree.pave place (first ++ second) =
      match tree.pave place first with
      | (.ok next, after) => after.pave next second
      | (.error error, after) => (.error error, after) := by
  induction first generalizing tree place with
  | nil => rfl
  | cons step rest ih =>
      rw [List.cons_append, pave, pave]
      rcases tree.paveStep place step with ⟨error | next, after⟩
      · rfl
      · exact ih after next

theorem pave_singleton (tree : FileTree) (place : Location) (step : List Char) :
    tree.pave place [step] = tree.paveStep place step := by
  rw [pave]
  rcases tree.paveStep place step with ⟨error | next, after⟩ <;> rfl

/-- Paving only ever adds directories. -/
theorem grows_pave (changed : Location → Prop) (tree : FileTree) (place : Location)
    (steps : List (List Char)) : Grows changed tree (tree.pave place steps).2 := by
  induction steps generalizing tree place with
  | nil => exact .refl tree
  | cons step rest ih =>
      have grows := grows_paveStep changed tree place step
      rcases first : tree.paveStep place step with ⟨error | next, after⟩
      · rw [first] at grows
        rw [pave_cons_of_error first]
        exact grows
      · rw [first] at grows
        rw [pave_cons_of_ok first]
        exact grows.trans (ih after next)

theorem pave_of_walk (busy : ∀ step ∈ steps, Path.isIdle step = false)
    (walked : steps.foldlM tree.enter place = .ok reached) :
    tree.pave place steps = (.ok reached, tree) := by
  induction steps generalizing place with
  | nil =>
      cases walked
      rfl
  | cons step rest ih =>
      rw [List.forall_mem_cons] at busy
      rw [List.foldlM_cons] at walked
      obtain ⟨next, entered, onward⟩ := Except.bind_eq_ok_iff.mp walked
      rw [pave_cons_of_ok (paveStep_of_enter busy.1 entered)]
      exact ih busy.2 onward

theorem exists_pave_of_walk_error (busy : ∀ step ∈ steps, Path.isIdle step = false)
    {error : FileError} (blocked : steps.foldlM tree.enter place = .error error)
    (there : error ≠ .notFound) :
    ∃ report, Reports error report ∧ tree.pave place steps = (.error report, tree) := by
  induction steps generalizing place with
  | nil => cases blocked
  | cons step rest ih =>
      rw [List.forall_mem_cons] at busy
      rw [List.foldlM_cons] at blocked
      rcases Except.bind_eq_error_iff.mp blocked with now | ⟨next, entered, later⟩
      · obtain ⟨report, reports, paved⟩ := exists_paveStep_of_enter_error busy.1 now there
        exact ⟨report, reports, pave_cons_of_error paved rest⟩
      · rw [pave_cons_of_ok (paveStep_of_enter busy.1 entered)]
        exact ih busy.2 later

/-- A way that was paved can be followed from then on. -/
theorem walk_of_pave (busy : ∀ step ∈ steps, Path.isIdle step = false)
    (paved : tree.pave place steps = (.ok reached, after)) (grows : Grows changed after later) :
    steps.foldlM later.enter place = .ok reached := by
  induction steps generalizing tree place with
  | nil =>
      cases paved
      rfl
  | cons step rest ih =>
      rw [List.forall_mem_cons] at busy
      rcases first : tree.paveStep place step with ⟨error | next, between⟩
      · rw [pave_cons_of_error first] at paved
        cases paved
      · rw [pave_cons_of_ok first] at paved
        have growsOn := grows_pave changed between next rest
        rw [paved] at growsOn
        rw [List.foldlM_cons, enter_of_paveStep first busy.1 (growsOn.trans grows)]
        exact ih busy.2 paved

/-- A way that was blocked stays so: another attempt reports the same and creates nothing. -/
theorem pave_of_error {error : FileError} (busy : ∀ step ∈ steps, Path.isIdle step = false)
    (blocked : tree.pave place steps = (.error error, after)) (grows : Grows changed after later) :
    later.pave place steps = (.error error, later) := by
  induction steps generalizing tree place with
  | nil => cases blocked
  | cons step rest ih =>
      rw [List.forall_mem_cons] at busy
      rcases first : tree.paveStep place step with ⟨fault | next, between⟩
      · rw [pave_cons_of_error first] at blocked
        cases blocked
        exact pave_cons_of_error (paveStep_of_error first grows).2 rest
      · rw [pave_cons_of_ok first] at blocked
        have growsOn := grows_pave changed between next rest
        rw [blocked] at growsOn
        have entered := enter_of_paveStep first busy.1 (growsOn.trans grows)
        rw [pave_cons_of_ok (paveStep_of_enter busy.1 entered)]
        exact ih busy.2 blocked

end ApiBindings.FileTree
