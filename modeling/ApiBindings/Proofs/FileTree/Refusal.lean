import ApiBindings.Proofs.Fallible
import ApiBindings.Proofs.FileTree.Execution
import ApiBindings.Proofs.Path.Parent

/-!
# Refused paths

An operation on files is refused, other than failing for what is or is not in the tree, exactly if
its path holds a NUL character.  Creating the directories of a path meets no other path than the
path itself and beginnings of it, so that only the path decides whether it is refused.
-/

namespace ApiBindings

/-- A fault that lies in what was asked for, whatever there is in the tree. -/
def FileError.IsRefusal : FileError → Prop
  | .refused _ => True
  | _ => False

namespace FileTree

/-! ## Finding a target -/

theorem enter_not_refusal {tree : FileTree} {place : Location} {segment : List Char}
    {error : FileError} (failed : tree.enter place segment = .error error) : ¬ error.IsRefusal := by
  unfold enter at failed
  repeat' split at failed
  all_goals cases failed <;> exact id

theorem targetFrom_not_refusal {tree : FileTree} {start : Location} {segments : List (List Char)}
    {error : FileError} (failed : tree.targetFrom start segments = .error error) :
    ¬ error.IsRefusal := by
  unfold targetFrom at failed
  split at failed
  · cases failed
  · rcases Except.bind_eq_error_iff.mp failed with walked | ⟨place, -, last⟩
    · obtain ⟨state, segment, -, entered⟩ := Except.exists_of_foldlM_eq_error walked
      exact enter_not_refusal entered
    · repeat' split at last
      all_goals cases last <;> exact id

/-- A path with a NUL character is refused before anything is looked up. -/
theorem checkPath_of_mem {path : Path} (nul : '\x00' ∈ path.text.toList) :
    checkPath path = .error (.refused "file name contained an unexpected NUL byte") := by
  simp [checkPath, nul]

theorem mem_of_target_isRefusal {tree : FileTree} {path : Path} {error : FileError}
    (failed : tree.target path = .error error) (refusal : error.IsRefusal) :
    '\x00' ∈ path.text.toList := by
  rcases Except.bind_eq_error_iff.mp failed with checked | ⟨-, -, found⟩
  · by_cases nul : '\x00' ∈ path.text.toList
    · exact nul
    · simp only [checkPath, List.contains_eq_mem, nul, decide_false, Bool.false_eq_true,
        if_false] at checked
      repeat' split at checked
      all_goals cases checked <;> exact refusal.elim
  · exact absurd refusal (targetFrom_not_refusal found)

/-! ## Operations -/

theorem mem_of_createDirectory_isRefusal {tree : FileTree} {path : Path} {error : FileError}
    (failed : tree.createDirectory path = .error error) (refusal : error.IsRefusal) :
    '\x00' ∈ path.text.toList := by
  rcases Except.bind_eq_error_iff.mp failed with missed | ⟨target, -, refused⟩
  · exact mem_of_target_isRefusal missed refusal
  · repeat' split at refused
    all_goals cases refused <;> exact refusal.elim

theorem mem_of_writeFile_isRefusal {tree : FileTree} {path : Path} {contents : ByteArray}
    {error : FileError} (failed : tree.writeFile path contents = .error error)
    (refusal : error.IsRefusal) : '\x00' ∈ path.text.toList := by
  rcases Except.bind_eq_error_iff.mp failed with missed | ⟨target, -, refused⟩
  · exact mem_of_target_isRefusal missed refusal
  · repeat' split at refused
    all_goals cases refused <;> exact refusal.elim

theorem createDirectory_of_mem {path : Path} (nul : '\x00' ∈ path.text.toList) (tree : FileTree) :
    tree.createDirectory path =
      .error (.refused "file name contained an unexpected NUL byte") := by
  rw [createDirectory, target, checkPath_of_mem nul]
  rfl

/-! ## Directories and files -/

theorem mem_of_ensure_isRefusal {tree : FileTree} {path : Path} {error : FileError}
    (failed : (tree.ensure path).1 = .error error) (refusal : error.IsRefusal) :
    '\x00' ∈ path.text.toList := by
  rw [ensure] at failed
  split at failed
  · cases failed
  · split at failed
    all_goals cases failed
    exact refusal.elim
  · rename_i created
    cases failed
    exact mem_of_createDirectory_isRefusal created refusal

theorem exists_of_ensureFirst_isRefusal {tree : FileTree} {paths : List Path} {error : FileError}
    (failed : (tree.ensureFirst paths).1 = .error error) (refusal : error.IsRefusal) :
    ∃ path ∈ paths, '\x00' ∈ path.text.toList := by
  induction paths generalizing tree error with
  | nil => cases failed
  | cons path around ih =>
      rw [ensureFirst] at failed
      split at failed
      · rename_i after _
        cases outer : after.ensureFirst around with
        | mk result final =>
            cases result with
            | error fault =>
                rw [outer] at failed
                cases failed
                obtain ⟨directory, member, nul⟩ := ih (by rw [outer]) refusal
                exact ⟨directory, by simp [member], nul⟩
            | ok done =>
                rw [outer] at failed
                exact ⟨path, by simp, mem_of_ensure_isRefusal failed refusal⟩
      · exact ⟨path, by simp, mem_of_ensure_isRefusal failed refusal⟩

/-- A directory that is refused is so at once: none of those around it is touched. -/
theorem ensureFirst_of_mem {path : Path} (nul : '\x00' ∈ path.text.toList) (around : List Path)
    (tree : FileTree) :
    tree.ensureFirst (path :: around) =
      (.error (.refused "file name contained an unexpected NUL byte"), tree) := by
  simp [ensureFirst, ensure, createDirectory_of_mem nul]

end FileTree

namespace Path

theorem mem_of_mem_directories {directory path : Path} {c : Char} (notSlash : c ≠ '/')
    (notDot : c ≠ '.') (member : directory ∈ path.directories)
    (inside : c ∈ directory.text.toList) : c ∈ path.text.toList := by
  rw [mem_iff_mem_parts notSlash notDot] at inside ⊢
  obtain ⟨part, inDirectory, inPart⟩ := inside
  exact ⟨part, (parts_isPrefix_of_mem_directories member).subset inDirectory, inPart⟩

/-- A path with a part of its own is the first of its directories. -/
theorem directories_of_mem {path : Path} {c : Char} (notSlash : c ≠ '/') (notDot : c ≠ '.')
    (inside : c ∈ path.text.toList) : ∃ around, path.directories = path :: around := by
  obtain ⟨part, member, inPart⟩ := (mem_iff_mem_parts notSlash notDot path).mp inside
  have some : path.parent? ≠ none := by
    apply parent?_ne_none
    · intro none
      simp [none] at member
    · intro root
      rw [root, List.mem_singleton] at member
      subst member
      exact notSlash (List.mem_singleton.mp inPart)
  obtain ⟨parent, found⟩ := Option.ne_none_iff_exists'.mp some
  exact directories_of_parent? found

end Path

namespace FileTree

theorem mem_of_writtenInto_isRefusal {tree : FileTree} {path : Path} {contents : String}
    {error : EmitError} (failed : (tree.writtenInto path contents).1 = .error error)
    (refusal : error.cause.IsRefusal) : '\x00' ∈ path.text.toList := by
  have wrote : ∀ tree : FileTree, (tree.written path contents).1 = .error error →
      '\x00' ∈ path.text.toList := by
    intro tree refused
    rw [written] at refused
    split at refused
    · cases refused
    · rename_i missed
      cases refused
      exact mem_of_writeFile_isRefusal missed refusal
  rw [writtenInto] at failed
  split at failed
  · exact wrote tree failed
  · rename_i directory found
    split at failed
    · rename_i cause after around
      cases failed
      have failed : (tree.ensureFirst directory.directories).1 = .error cause := by rw [around]
      obtain ⟨outer, member, nul⟩ := exists_of_ensureFirst_isRefusal failed refusal
      have inDirectory := Path.mem_of_mem_directories (by decide) (by decide) member nul
      rw [Path.mem_iff_mem_parts (by decide) (by decide)] at inDirectory ⊢
      obtain ⟨part, inParts, inPart⟩ := inDirectory
      rw [Path.parts_parent? found] at inParts
      exact ⟨part, (List.dropLast_prefix _).subset inParts, inPart⟩
    · exact wrote _ failed

/-- Writing below a directory with a NUL character in its path is refused, and changes nothing. -/
theorem writtenInto_of_mem_dropLast {path : Path} {part : List Char}
    (member : part ∈ path.parts.dropLast) (nul : '\x00' ∈ part) (tree : FileTree)
    (contents : String) :
    ∃ directory, path.parent? = some directory ∧ tree.writtenInto path contents =
      (.error ⟨directory, .refused "file name contained an unexpected NUL byte"⟩, tree) := by
  have some : path.parent? ≠ none := by
    apply Path.parent?_ne_none
    · intro none
      simp [none] at member
    · intro root
      simp [root] at member
  obtain ⟨directory, found⟩ := Option.ne_none_iff_exists'.mp some
  have inDirectory : '\x00' ∈ directory.text.toList := by
    rw [Path.mem_iff_mem_parts (by decide) (by decide), Path.parts_parent? found]
    exact ⟨part, member, nul⟩
  obtain ⟨around, outward⟩ := Path.directories_of_mem (by decide) (by decide) inDirectory
  refine ⟨directory, found, ?_⟩
  simp only [writtenInto, found, outward, ensureFirst_of_mem inDirectory]

end FileTree

end ApiBindings
