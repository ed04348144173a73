import ApiBindings.FileTree.Access

/-!
# Files of the world around a program

What a program needs of files, so that it can run on the files of a machine and on a file tree
alike, and how it writes a file: directories on the way are created, and a file that is there is
overwritten.
-/

namespace ApiBindings

/-- Programs that have files around them. -/
class MonadFiles (m : Type → Type) where
  /-- Whether there is something at a path. -/
  hasPath : Path → m Bool
  /-- Whether there is a directory at a path. -/
  hasDirectory : Path → m Bool
  /-- The text of a file. -/
  readText : Path → m (Except FileError String)
  /-- Create one directory, in a directory that exists. -/
  createDirectory : Path → m (Except FileError Unit)
  /-- Write a file in a directory that exists, in place of what the file held. -/
  writeText : Path → String → m (Except FileError Unit)

namespace FileTree

/-- Change a tree, or leave it as it is where that fails. -/
def attempt (change : FileTree → Except FileError FileTree) :
    StateM FileTree (Except FileError Unit) :=
  modifyGet fun tree =>
    match change tree with
    | .ok changed => (.ok (), changed)
    | .error error => (.error error, tree)

instance : MonadFiles (StateM FileTree) where
  hasPath path := return (← get).hasPath path
  hasDirectory path := return (← get).hasDirectory path
  readText path := return (← get).readText path
  createDirectory path := attempt (·.createDirectory path)
  writeText path text := attempt (·.writeFile path text.toUTF8)

end FileTree

namespace Files

variable {m : Type → Type} [Monad m] [MonadFiles m]

/-- Make sure of a directory, with the one around it in place. -/
def ensureDirectory (path : Path) : m (Except FileError Unit) := do
  match ← MonadFiles.createDirectory path with
  | .error .alreadyExists =>
      if ← MonadFiles.hasDirectory path then return .ok () else return .error .alreadyExists
  | result => return result

/-- Make sure of the first of several directories, each of which lies in the next one. Those further
out are created only where an inner one has nothing to lie in. What was created before a fault
stays. -/
def ensureFirst : List Path → m (Except FileError Unit)
  | [] => return .ok ()
  | path :: around => do
      match ← ensureDirectory path with
      | .error .notFound =>
          match ← ensureFirst around with
          | .ok () => ensureDirectory path
          | failed => return failed
      | result => return result

/-- Make sure of a directory and of those around it. -/
def ensureDirectories (path : Path) : m (Except FileError Unit) :=
  ensureFirst path.directories

end Files

/-- A file that could not be written, or the directory that stood in the way. -/
structure EmitError where
  path : Path
  cause : FileError
  deriving Repr, DecidableEq

/-- The text shown for a fault. -/
def EmitError.message (error : EmitError) : String :=
  "Failed to write " ++ error.path.text ++ ": " ++ error.cause.message

section Writing

variable {m : Type → Type} [Monad m] [MonadFiles m]

/-- Write a text to a file and create the directories around it. -/
def writeInto (path : Path) (contents : String) : m (Except EmitError Path) := do
  match path.parent? with
  | none => write
  | some directory =>
      match ← Files.ensureDirectories directory with
      | .error cause => return .error ⟨directory, cause⟩
      | .ok () => write
where
  /-- Write the text, with the directories in place. -/
  write : m (Except EmitError Path) := do
    match ← MonadFiles.writeText path contents with
    | .error cause => return .error ⟨path, cause⟩
    | .ok () => return .ok path

end Writing

end ApiBindings
