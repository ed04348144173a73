import ApiBindings.Files

/-!
# Programs that run on a file tree

What the programs that create directories and write files come to on a given tree: their result and
the tree they leave.  Each program is told as a function of the tree, so that its properties need
not look into the monad it is written for.
-/

namespace ApiBindings.FileTree

/-- Make sure of a directory in a tree. -/
def ensure (tree : FileTree) (path : Path) : Except FileError Unit × FileTree :=
  match tree.createDirectory path with
  | .ok changed => (.ok (), changed)
  | .error .alreadyExists =>
      (if tree.hasDirectory path then .ok () else .error .alreadyExists, tree)
  | .error error => (.error error, tree)

/-- Make sure of the first of several directories in a tree. -/
def ensureFirst (tree : FileTree) : List Path → Except FileError Unit × FileTree
  | [] => (.ok (), tree)
  | path :: around =>
      match tree.ensure path with
      | (.error .notFound, after) =>
          match after.ensureFirst around with
          | (.ok (), after) => after.ensure path
          | failed => failed
      | result => result

/-- Write a text to a file of a tree, with the directories in place. -/
def written (tree : FileTree) (path : Path) (contents : String) :
    Except EmitError Path × FileTree :=
  match tree.writeFile path contents.toUTF8 with
  | .ok changed => (.ok path, changed)
  | .error cause => (.error ⟨path, cause⟩, tree)

/-- Write a text to a file of a tree and create the directories around it. -/
def writtenInto (tree : FileTree) (path : Path) (contents : String) :
    Except EmitError Path × FileTree :=
  match path.parent? with
  | none => tree.written path contents
  | some directory =>
      match tree.ensureFirst directory.directories with
      | (.error cause, after) => (.error ⟨directory, cause⟩, after)
      | (.ok (), after) => after.written path contents

theorem run_bind {σ α β : Type} (first : StateM σ α) (next : α → StateM σ β) (state : σ) :
    StateT.run (m := Id) (first >>= next) state =
      StateT.run (m := Id) (next (first.run state).1) (first.run state).2 := rfl

theorem run_attempt (change : FileTree → Except FileError FileTree) (tree : FileTree) :
    StateT.run (m := Id) (attempt change) tree =
      match change tree with
      | .ok changed => (.ok (), changed)
      | .error error => (.error error, tree) := rfl

theorem run_ensureDirectory (tree : FileTree) (path : Path) :
    StateT.run (m := Id) (Files.ensureDirectory path) tree = tree.ensure path := by
  have created : StateT.run (m := Id) (MonadFiles.createDirectory path) tree = _ :=
    run_attempt (·.createDirectory path) tree
  rw [Files.ensureDirectory, run_bind, created, ensure]
  rcases tree.createDirectory path with error | changed
  · cases error
    case alreadyExists =>
      change (if tree.hasDirectory path then (pure (Except.ok ()) : StateM FileTree _)
        else pure (Except.error FileError.alreadyExists)) tree = _
      split <;> rfl
    all_goals rfl
  · rfl

theorem run_ensureFirst (tree : FileTree) (paths : List Path) :
    StateT.run (m := Id) (Files.ensureFirst paths) tree = tree.ensureFirst paths := by
  induction paths generalizing tree with
  | nil => rfl
  | cons path around ih =>
      rw [Files.ensureFirst, run_bind, run_ensureDirectory, ensureFirst]
      rcases tree.ensure path with ⟨error | done, after⟩
      · cases error
        case notFound =>
          simp only [run_bind, ih]
          rcases after.ensureFirst around with ⟨error | done, final⟩
          · rfl
          · exact run_ensureDirectory final path
        all_goals rfl
      · rfl

theorem run_write (tree : FileTree) (path : Path) (contents : String) :
    StateT.run (m := Id) (writeInto.write path contents) tree = tree.written path contents := by
  have wrote : StateT.run (m := Id) (MonadFiles.writeText path contents) tree = _ :=
    run_attempt (·.writeFile path contents.toUTF8) tree
  rw [writeInto.write, run_bind, wrote, written]
  rcases tree.writeFile path contents.toUTF8 with error | changed <;> rfl

/-- Writing a file on a tree, as a function of the tree. -/
theorem run_writeInto (tree : FileTree) (path : Path) (contents : String) :
    StateT.run (m := Id) (writeInto path contents) tree = tree.writtenInto path contents := by
  rw [writeInto, writtenInto]
  cases path.parent? with
  | none => exact run_write tree path contents
  | some directory =>
      simp only [Files.ensureDirectories, run_bind, run_ensureFirst]
      rcases tree.ensureFirst directory.directories with ⟨error | done, after⟩
      · rfl
      · exact run_write after path contents

end ApiBindings.FileTree
