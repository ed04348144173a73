import ApiBindings.Proofs.FileTree.Execution
import ApiBindings.Proofs.FileTree.Growth
import ApiBindings.Proofs.Path.Steps

/-!
# Written files

A path that ends in an ordinary name stands for a file of that name, wherever the rest of the path
leads.  Writing a file leaves the way to it as it was, so that the file is found again at the path
it was written to.
-/

namespace ApiBindings.FileTree

/-- The place of the file or directory that the last name of a path stands for. -/
def place? (tree : FileTree) (path : Path) : Option Location :=
  match tree.target path with
  | .ok (.named around name _) => some (name :: around)
  | _ => none

/-! ## Where a path leads -/

theorem targetFrom_concat {tree : FileTree} {start : Location} {segments : List (List Char)}
    {name : List Char} {target : Target} (ordinary : Path.IsOrdinary name)
    (found : tree.targetFrom start (segments ++ [name]) = .ok target) :
    ∃ around, target = .named around name false := by
  have full : name.isEmpty = false := by simp [ordinary.nonempty]
  simp only [targetFrom, List.reverse_append, List.reverse_cons, List.reverse_nil, List.nil_append,
    List.singleton_append, List.dropWhile_cons, List.takeWhile_cons, full, Bool.false_eq_true,
    if_false, beq_iff_eq, ordinary.notDot, ordinary.notDotDot] at found
  obtain ⟨around, -, last⟩ := Except.bind_eq_ok_iff.mp found
  split at last
  · cases last
  · cases last
    exact ⟨around, rfl⟩

/-- A path that ends in a name stands for a file of that name. -/
theorem exists_of_target {tree : FileTree} {name : List Char} {target : Target} {path : Path}
    (ends : path.EndsIn name) (reached : tree.target path = .ok target) :
    ∃ around, target = .named around name false := by
  obtain ⟨segments, cut⟩ := ends.cut
  obtain ⟨-, -, walked⟩ := Except.bind_eq_ok_iff.mp reached
  rw [cut] at walked
  exact targetFrom_concat ends.ordinary walked

/-- A last segment that leads on is the file name of its path. -/
theorem fileName?_of_dropWhile {path : Path} {last : List Char} {before : List (List Char)}
    (cut : (Path.splitSlashes path.text.toList).reverse.dropWhile (·.isEmpty) = last :: before)
    (notDot : last ≠ ['.']) (notDotDot : last ≠ ['.', '.']) : path.fileName? = some last := by
  have empties : ((Path.splitSlashes path.text.toList).reverse.takeWhile (·.isEmpty)).filter
      (!Path.isIdle ·) = [] := by
    rw [List.filter_eq_nil_iff]
    intro segment member
    have empty : segment.isEmpty = true := List.all_eq_true.mp List.all_takeWhile segment member
    simp [Path.isIdle, empty]
  have full : last.isEmpty = false := by
    have head := List.head?_dropWhile_not (·.isEmpty) (Path.splitSlashes path.text.toList).reverse
    simpa [cut] using head
  have busy : Path.isIdle last = false := by
    simp [Path.isIdle, full, notDot]
  have steps : path.steps = (before.filter (!Path.isIdle ·)).reverse ++ [last] := by
    rw [Path.steps, ← List.reverse_inj, ← List.filter_reverse,
      ← List.takeWhile_append_dropWhile (p := (·.isEmpty))
        (l := (Path.splitSlashes path.text.toList).reverse), List.filter_append, empties, cut]
    simp [busy]
  have notRoot : last ≠ ['/'] := by
    rintro rfl
    have member : ['/'] ∈ path.steps := by simp [steps]
    exact Path.noSlash_of_mem_steps member (by simp)
  rw [Path.fileName?, Path.parts_eq_append_steps, steps, ← List.append_assoc]
  simp [notRoot, notDot, notDotDot]

/-- The name that a path stands for is its file name. -/
theorem fileName?_of_target {tree : FileTree} {path : Path} {around : Location}
    {name : List Char} {slash : Bool}
    (reached : tree.target path = .ok (.named around name slash)) :
    path.fileName? = some name := by
  obtain ⟨-, -, found⟩ := Except.bind_eq_ok_iff.mp reached
  unfold targetFrom at found
  split at found
  · cases found
  · rename_i last before cut
    obtain ⟨place, -, decided⟩ := Except.bind_eq_ok_iff.mp found
    split at decided
    · cases decided
    · rename_i notDot
      split at decided
      · cases decided
      · rename_i notDotDot
        split at decided
        · cases decided
        · cases decided
          exact fileName?_of_dropWhile cut (by simpa using notDot) (by simpa using notDotDot)

/-- The place of a file is one of the name of the file. -/
theorem head?_of_place? {tree : FileTree} {path : Path} {place : Location}
    (found : tree.place? path = some place) : place.head? = path.fileName? := by
  unfold place? at found
  split at found
  · rename_i reached
    cases found
    exact (fileName?_of_target reached).symm
  · cases found

/-! ## Reading what was written -/

theorem exists_of_writeFile {tree after : FileTree} {path : Path} {contents : ByteArray}
    (wrote : tree.writeFile path contents = .ok after) :
    ∃ around name, tree.target path = .ok (.named around name false) ∧
      tree.isDirectory (name :: around) = false ∧
      after = tree.insert (name :: around) (.file contents) := by
  obtain ⟨target, reached, put⟩ := Except.bind_eq_ok_iff.mp wrote
  cases target with
  | directory place => cases put
  | named around name slash =>
      cases slash with
      | true => cases put
      | false =>
          cases taken : tree.isDirectory (name :: around) with
          | true => simp only [taken] at put; cases put
          | false =>
              simp only [taken] at put
              cases put
              exact ⟨around, name, reached, taken, rfl⟩

/-- A file holds what was written to it last. -/
theorem readFile_of_writeFile {tree after : FileTree} {path : Path} {contents : ByteArray}
    (wrote : tree.writeFile path contents = .ok after) : after.readFile path = .ok contents := by
  obtain ⟨around, name, reached, free, rfl⟩ := exists_of_writeFile wrote
  have grows : Grows (fun _ => True) tree (tree.insert (name :: around) (.file contents)) :=
    .insert_file free contents trivial
  simp [readFile, status, grows.target_eq, reached, bind, Except.bind, pure, Except.pure]

/-- A text that was written into its directories is found at its path. -/
theorem readFile_of_writtenInto {tree after : FileTree} {path result : Path} {contents : String}
    (wrote : tree.writtenInto path contents = (.ok result, after)) :
    result = path ∧ after.readFile path = .ok contents.toUTF8 := by
  have put : ∀ tree : FileTree, tree.written path contents = (.ok result, after) →
      result = path ∧ after.readFile path = .ok contents.toUTF8 := by
    intro tree done
    unfold written at done
    split at done
    · rename_i changed kept
      cases done
      exact ⟨rfl, readFile_of_writeFile kept⟩
    · cases done
  unfold writtenInto at wrote
  split at wrote
  · exact put tree wrote
  · split at wrote
    · cases wrote
    · exact put _ wrote

end ApiBindings.FileTree
