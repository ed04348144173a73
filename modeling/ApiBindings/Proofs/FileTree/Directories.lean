import ApiBindings.Proofs.FileTree.Paving

/-!
# Directories on the way to a path

Making sure of a directory tries the directory itself first and turns to those around it only where
something is missing.  What comes of it can be told from the front: the way to it is paved, unless
it is blocked before anything is missing.  The two differ only in what they report of a file that
stands in the way.
-/

namespace ApiBindings.FileTree

/-- Pave a way: whether it leads to its end, and the tree that is left. -/
def paved (tree : FileTree) (place : Location) (steps : List (List Char)) :
    Except FileError Unit × FileTree :=
  ((tree.pave place steps).1.map fun _ => (), (tree.pave place steps).2)

/-- Pave a way, unless the way to its last step is blocked. -/
def makeWay (tree : FileTree) (place : Location) (steps : List (List Char)) :
    Except FileError Unit × FileTree :=
  match steps.dropLast.foldlM tree.enter place with
  | .error .notFound | .ok _ => tree.paved place steps
  | .error error => (.error error, tree)

/-- The directory that a path starts from. -/
def start (tree : FileTree) (path : Path) : Location :=
  if path.isAbsolute then [] else tree.workingDirectory

/-- Whether a directory can be asked for. A path without a parent is not asked for. -/
def checkDirectory (path : Path) : Except FileError Unit :=
  if path.parent?.isSome then checkPath path else .ok ()

/-- Make sure of a directory and of those around it, from the front. -/
def ensured (tree : FileTree) (path : Path) : Except FileError Unit × FileTree :=
  match checkDirectory path with
  | .error error => (.error error, tree)
  | .ok () => tree.makeWay (tree.start path) path.steps

variable {tree after : FileTree} {path parent : Path} {place : Location}
  {before : List (List Char)} {last : List Char}

/-! ## Targets -/

theorem enter_of_isIdle {segment : List Char} (idle : Path.isIdle segment = true) :
    tree.enter place segment = .ok place := by
  simp [enter, idle]

/-- Segments that lead nowhere can be left out of a way. -/
theorem foldlM_enter_filter (tree : FileTree) (place : Location) (segments : List (List Char)) :
    (segments.filter (!Path.isIdle ·)).foldlM tree.enter place =
      segments.foldlM tree.enter place := by
  induction segments generalizing place with
  | nil => rfl
  | cons segment rest ih =>
      cases idle : Path.isIdle segment with
      | true => simp [idle, enter_of_isIdle idle, ih, bind, Except.bind]
      | false => simp [idle, ih]

theorem foldlM_enter_of_isIdle {segments : List (List Char)}
    (idle : ∀ segment ∈ segments, Path.isIdle segment = true) :
    segments.foldlM tree.enter place = .ok place := by
  have none : segments.filter (!Path.isIdle ·) = [] := by simpa using idle
  rw [← foldlM_enter_filter, none]
  rfl

theorem start_parent? (found : path.parent? = some parent) :
    tree.start parent = tree.start path := by
  rw [start, start, Path.isAbsolute_parent? found]

/-- A path without steps leads to where it starts. -/
theorem target_of_steps_eq_nil (tree : FileTree) (legal : checkPath path = .ok ())
    (none : path.steps = []) :
    tree.target path = .ok (.directory (tree.start path)) := by
  have idle : ∀ segment ∈ Path.splitSlashes path.text.toList, Path.isIdle segment = true := by
    simpa [Path.steps] using none
  rw [target, legal]
  change targetFrom tree (tree.start path) _ = _
  unfold targetFrom
  split
  · rfl
  · rename_i last before spelled
    have within : ∀ segment ∈ last :: before, Path.isIdle segment = true := by
      intro segment member
      rw [← spelled] at member
      exact idle segment (List.mem_reverse.mp (List.dropWhile_subset _ member))
    rw [List.forall_mem_cons] at within
    have full : last.isEmpty = false := by
      have head := List.head?_dropWhile_not (·.isEmpty)
        (Path.splitSlashes path.text.toList).reverse
      simpa [spelled] using head
    have dot : last = ['.'] := by simpa [Path.isIdle, full] using within.1
    rw [foldlM_enter_of_isIdle fun segment member => within.2 segment (List.mem_reverse.mp member)]
    simp [bind, Except.bind, dot, pure, Except.pure]

/-- A tidy path leads as far as its last step, which then decides. -/
theorem target_of_isTidy (tree : FileTree) (tidy : path.IsTidy) (legal : checkPath path = .ok ())
    (steps : path.steps = before ++ [last]) :
    tree.target path = before.foldlM tree.enter (tree.start path) >>= fun place =>
      if last = ['.', '.'] then .ok (.directory place.tail)
      else if isTooLong last then .error .nameTooLong
      else .ok (.named place last false) := by
  rcases tidy with none | ⟨segments, final, cut, busy⟩
  · simp [none] at steps
  · have same : segments.filter (!Path.isIdle ·) = before ∧ final = last := by
      rw [Path.steps, cut, List.filter_append] at steps
      simpa [busy] using steps
    obtain ⟨rfl, rfl⟩ := same
    have full : final.isEmpty = false := by
      rw [Path.isIdle, Bool.or_eq_false_iff] at busy
      exact busy.1
    have notDot : final ≠ ['.'] := by
      rintro rfl
      simp [Path.isIdle] at busy
    rw [foldlM_enter_filter, target, legal, cut]
    change targetFrom tree (tree.start path) _ = _
    simp only [targetFrom, List.reverse_append, List.reverse_cons, List.reverse_nil,
      List.nil_append, List.singleton_append, List.dropWhile_cons, List.takeWhile_cons, full,
      Bool.false_eq_true, if_false, beq_iff_eq, notDot, List.reverse_reverse]
    rfl

/-- A path that ends in a name stands for what has the name, wherever the rest of it leads. -/
theorem target_of_endsIn {name : List Char} (ends : path.EndsIn name)
    (found : path.parent? = some parent) (legal : checkPath path = .ok ()) :
    tree.target path = parent.steps.foldlM tree.enter (tree.start parent) >>= fun place =>
      if isTooLong name then .error .nameTooLong else .ok (.named place name false) := by
  rw [target_of_isTidy tree ends.isTidy legal (ends.steps_eq found), start_parent? found]
  simp only [ends.ordinary.notDotDot, if_false]

/-! ## Single directories -/

theorem ensure_of_target_eq_error {error : FileError} (failed : tree.target path = .error error) :
    tree.ensure path = (.error error, tree) := by
  have created : tree.createDirectory path = .error error := by
    rw [createDirectory, failed]
    rfl
  have absent : tree.hasDirectory path = false := by
    rw [hasDirectory, status, failed]
    rfl
  rw [ensure, created]
  cases error
  case alreadyExists => simp [absent]
  all_goals rfl

/-- A directory that was found on the way is there. -/
theorem ensure_of_target_eq_directory (found : tree.target path = .ok (.directory place)) :
    tree.ensure path = (.ok (), tree) := by
  have created : tree.createDirectory path = .error .alreadyExists := by
    rw [createDirectory, found]
    rfl
  have there : tree.hasDirectory path = true := by
    rw [hasDirectory, status, found]
    rfl
  simp [ensure, created, there]

/-- To make sure of a directory right in another one is to take one step from there. -/
theorem ensure_of_walk (tidy : path.IsTidy) (legal : checkPath path = .ok ())
    (steps : path.steps = before ++ [last])
    (walked : before.foldlM tree.enter (tree.start path) = .ok place) :
    tree.ensure path =
      ((tree.paveStep place last).1.map fun _ => (), (tree.paveStep place last).2) := by
  have target := target_of_isTidy tree tidy legal steps
  rw [walked] at target
  change tree.target path = _ at target
  rw [paveStep]
  split
  · rename_i back
    simp only [bind, Except.bind, back, if_true] at target
    exact ensure_of_target_eq_directory target
  · rename_i onwards
    simp only [bind, Except.bind, onwards, if_false] at target
    split
    · rename_i long
      simp only [long, if_true] at target
      exact ensure_of_target_eq_error target
    · rename_i short
      simp only [short, Bool.false_eq_true, if_false] at target
      cases found : tree.find? (last :: place) with
      | none =>
          simp [ensure, createDirectory, target, found, bind, Except.bind, pure, Except.pure,
            Except.map]
      | some entry =>
          have created : tree.createDirectory path = .error .alreadyExists := by
            simp [createDirectory, target, found, bind, Except.bind, throw, throwThe,
              MonadExceptOf.throw]
          cases entry <;>
            simp [ensure, created, hasDirectory, status, target, found, bind, Except.bind, pure,
              Except.pure, Except.map]

theorem ensure_of_walk_error (tidy : path.IsTidy) (legal : checkPath path = .ok ())
    (steps : path.steps = before ++ [last]) {error : FileError}
    (blocked : before.foldlM tree.enter (tree.start path) = .error error) :
    tree.ensure path = (.error error, tree) := by
  apply ensure_of_target_eq_error
  rw [target_of_isTidy tree tidy legal steps, blocked]
  rfl

/-! ## Directories around one another -/

theorem byteLength_le_of_isPrefix {first second : List Char} (beginning : first <+: second) :
    byteLength first ≤ byteLength second := by
  obtain ⟨more, rfl⟩ := beginning
  simp [byteLength, String.ofList_append]

/-- Where a directory can be asked for, so can the one around it. -/
theorem checkPath_parent? (legal : checkPath path = .ok ()) (found : path.parent? = some parent)
    (some : parent.steps ≠ []) : checkPath parent = .ok () := by
  have beginning := Path.text_parent?_isPrefix found
  have nonempty : parent.text.toList ≠ [] := by
    intro empty
    exact some (by simp [Path.steps, empty, Path.splitSlashes, Path.isIdle])
  have length := byteLength_le_of_isPrefix beginning
  simp only [checkPath] at legal ⊢
  split at legal
  · cases legal
  · rename_i plain
    split at legal
    · cases legal
    · split at legal
      · cases legal
      · rename_i short
        have plainToo : '\x00' ∉ parent.text.toList := by
          intro nul
          exact plain (by simpa using beginning.subset nul)
        have shortToo : ¬ 4095 < byteLength parent.text.toList := by omega
        simp [plainToo, nonempty, shortToo]

/-! ## Ways from the front -/

/-- A step that cannot be paved is not taken for one that is missing. -/
theorem paveStep_ne_notFound (tree : FileTree) (place : Location) (step : List Char) :
    (tree.paveStep place step).1 ≠ .error .notFound := by
  rw [paveStep]
  repeat' split
  all_goals simp

theorem map_ne_notFound {α β : Type} {result : Except FileError α} {image : α → β}
    (there : result ≠ .error .notFound) : result.map image ≠ .error .notFound := by
  cases result with
  | ok value => simp [Except.map]
  | error error => simpa [Except.map] using there

theorem ensureFirst_of_ne_notFound {around : List Path}
    (there : (tree.ensure path).1 ≠ .error .notFound) :
    tree.ensureFirst (path :: around) = tree.ensure path := by
  rw [ensureFirst]
  split
  · rename_i missing
    rw [missing] at there
    exact absurd rfl there
  · rfl

theorem makeWay_nil : tree.makeWay place [] = (.ok (), tree) := rfl

section Ways

variable {steps : List (List Char)}

/-- Something stands in a way, or nothing does but what is missing. -/
theorem blocked_or_open (tree : FileTree) (place : Location) (steps : List (List Char)) :
    (∃ error, error ≠ .notFound ∧ steps.foldlM tree.enter place = .error error) ∨
      ∀ error, steps.foldlM tree.enter place = .error error → error = .notFound := by
  cases walked : steps.foldlM tree.enter place with
  | ok reached => exact .inr (by simp)
  | error error =>
      by_cases missing : error = .notFound
      · exact .inr (by simp [missing])
      · exact .inl ⟨error, missing, rfl⟩

/-- A way that is blocked before its last step is left as it is. -/
theorem makeWay_of_blocked {error : FileError}
    (blocked : steps.dropLast.foldlM tree.enter place = .error error) (there : error ≠ .notFound) :
    tree.makeWay place steps = (.error error, tree) := by
  rw [makeWay, blocked]
  cases error
  case notFound => exact absurd rfl there
  all_goals rfl

/-- A way is paved if its last step can be reached once what is missing is created. -/
theorem makeWay_of_open
    (missing : ∀ error, steps.dropLast.foldlM tree.enter place = .error error →
      error = .notFound) : tree.makeWay place steps = tree.paved place steps := by
  rw [makeWay]
  cases walked : steps.dropLast.foldlM tree.enter place with
  | ok reached => rfl
  | error error => rw [missing error walked]

/-- Only the last step of a way is paved if the others lead somewhere. -/
theorem paved_of_walk {reached : Location} (busy : ∀ step ∈ before, Path.isIdle step = false)
    (walked : before.foldlM tree.enter place = .ok reached) :
    tree.paved place (before ++ [last]) =
      ((tree.paveStep reached last).1.map fun _ => (), (tree.paveStep reached last).2) := by
  rw [paved, pave_append, pave_of_walk busy walked]
  simp only [pave_singleton]

/-- What keeps from a beginning of a way keeps from the whole. -/
theorem foldlM_enter_dropLast_error {error : FileError}
    (blocked : steps.dropLast.foldlM tree.enter place = .error error) :
    steps.foldlM tree.enter place = .error error := by
  rcases List.eq_nil_or_concat steps with rfl | ⟨before, last, rfl⟩
  · exact blocked
  · rw [List.concat_eq_append, List.dropLast_concat] at blocked
    rw [List.concat_eq_append, List.foldlM_append, blocked]
    rfl

end Ways

theorem isIdle_of_mem_before (steps : path.steps = before ++ [last]) :
    ∀ step ∈ before, Path.isIdle step = false := by
  intro step member
  have inPath : step ∈ path.steps := by simp [steps, member]
  exact Path.isIdle_of_mem_steps inPath

/-- A directory whose surroundings are missing is made after them, as the last step of its way. -/
theorem ensureFirst_cons_of_missing {around : List Path} (tidy : path.IsTidy)
    (legal : checkPath path = .ok ()) (steps : path.steps = before ++ [last])
    (missing : before.foldlM tree.enter (tree.start path) = .error .notFound)
    (outer : tree.ensureFirst around = tree.paved (tree.start path) before) :
    tree.ensureFirst (path :: around) = tree.paved (tree.start path) (before ++ [last]) := by
  have ensured := ensure_of_walk_error tidy legal steps missing
  simp only [ensureFirst, ensured]
  rw [outer, paved, paved, pave_append]
  rcases first : tree.pave (tree.start path) before with ⟨fault | reached, after⟩
  · rfl
  · have grows := grows_pave (fun _ => False) tree (tree.start path) before
    rw [first] at grows
    have start : after.start path = tree.start path := by
      rw [start, start, grows.workingDirectory]
    have still : Grows (fun _ => False) after after := .refl after
    have walked : before.foldlM after.enter (after.start path) = .ok reached := by
      rw [start]
      exact walk_of_pave (isIdle_of_mem_before steps) first still
    simp only [Except.map, pave_singleton]
    exact ensure_of_walk tidy legal steps walked

/-- Directories that lie in one another are made sure of as if from the front. -/
theorem ensureFirst_around (count : Nat) (tidy : path.IsTidy)
    (legal : path.parent? ≠ none → checkPath path = .ok ()) (many : path.parts.length ≤ count) :
    tree.ensureFirst (path.around count) = tree.makeWay (tree.start path) path.steps := by
  induction count generalizing path with
  | zero =>
      have none : path.steps = [] := by
        rw [Path.steps_eq_filter, List.length_eq_zero_iff.mp (Nat.le_zero.mp many),
          List.filter_nil]
      rw [none, makeWay_nil]
      rfl
  | succ count ih =>
      cases found : path.parent? with
      | none =>
          rw [Path.steps_of_parent?_eq_none found, makeWay_nil]
          simp only [Path.around, found]
          rfl
      | some parent =>
          have legal := legal (by simp [found])
          simp only [Path.around, found]
          rcases List.eq_nil_or_concat path.steps with none | ⟨before, last, steps⟩
          · have ensured := ensure_of_target_eq_directory
              (target_of_steps_eq_nil tree legal none)
            rw [ensureFirst_of_ne_notFound (by simp [ensured]), ensured, none, makeWay_nil]
          · rw [List.concat_eq_append] at steps
            rw [steps]
            cases walked : before.foldlM tree.enter (tree.start path) with
            | ok place =>
                have ensured := ensure_of_walk tidy legal steps walked
                have there : (tree.ensure path).1 ≠ .error .notFound := by
                  rw [ensured]
                  exact map_ne_notFound (paveStep_ne_notFound tree place last)
                rw [ensureFirst_of_ne_notFound there, ensured, makeWay_of_open,
                  paved_of_walk (isIdle_of_mem_before steps) walked]
                simp [walked]
            | error error =>
                by_cases missing : error = .notFound
                · subst missing
                  have stepsToo : parent.steps = before := by
                    rw [Path.steps_parent? found, steps, List.dropLast_concat]
                  have some : parent.steps ≠ [] := by
                    rw [stepsToo]
                    rintro rfl
                    cases walked
                  have fewer : parent.parts.length ≤ count := by
                    rw [Path.parts_parent? found, List.length_dropLast]
                    omega
                  have outer := ih (Path.isTidy_parent? found)
                    (fun _ => checkPath_parent? legal found some) fewer
                  rw [start_parent? found, stepsToo, makeWay_of_open] at outer
                  · rw [ensureFirst_cons_of_missing tidy legal steps walked outer, makeWay_of_open]
                    simp [walked]
                  · intro error blocked
                    have same := foldlM_enter_dropLast_error blocked
                    rw [walked] at same
                    exact (Except.error.inj same).symm
                · have ensured := ensure_of_walk_error tidy legal steps walked
                  rw [ensureFirst_of_ne_notFound (by simp [ensured, missing]), ensured,
                    makeWay_of_blocked (by rwa [List.dropLast_concat]) missing]

/-- Making sure of a directory and of those around it comes to paving the way to it. -/
theorem ensureFirst_directories (tidy : path.IsTidy) :
    tree.ensureFirst path.directories = tree.ensured path := by
  rw [ensured]
  split
  · rename_i error refused
    rw [checkDirectory] at refused
    split at refused
    · rename_i some
      obtain ⟨parent, found⟩ := Option.isSome_iff_exists.mp some
      have failed : tree.ensure path = (.error error, tree) := by
        apply ensure_of_target_eq_error
        rw [target, refused]
        rfl
      have there : error ≠ .notFound := by
        rintro rfl
        simp only [checkPath] at refused
        split at refused
        · cases refused
        · split at refused
          · rename_i empty
            exact Path.text_ne_nil_of_parent? found (List.isEmpty_iff.mp empty)
          · split at refused <;> cases refused
      obtain ⟨around, outward⟩ := Path.directories_of_parent? found
      rw [outward, ensureFirst_of_ne_notFound (by simp [failed, there]), failed]
    · cases refused
  · rename_i legal
    apply ensureFirst_around _ tidy _ (Path.length_parts_le path)
    intro some
    rwa [checkDirectory, if_pos (Option.isSome_iff_ne_none.mpr some)] at legal

/-! ## What is left -/

/-- Whether a way is blocked or not, the tree that is left is the one that is paved. -/
theorem makeWay_snd {steps : List (List Char)} (busy : ∀ step ∈ steps, Path.isIdle step = false) :
    (tree.makeWay place steps).2 = (tree.pave place steps).2 := by
  rcases blocked_or_open tree place steps.dropLast with ⟨error, there, blocked⟩ | missing
  · obtain ⟨report, -, paved⟩ := exists_pave_of_walk_error busy
      (foldlM_enter_dropLast_error blocked) there
    rw [makeWay_of_blocked blocked there, paved]
  · rw [makeWay_of_open missing, paved]

theorem grows_ensured (changed : Location → Prop) (tree : FileTree) (path : Path) :
    Grows changed tree (tree.ensured path).2 := by
  rw [ensured]
  split
  · exact .refl tree
  · rw [makeWay_snd fun _ member => Path.isIdle_of_mem_steps member]
    exact grows_pave changed tree _ _

end ApiBindings.FileTree
