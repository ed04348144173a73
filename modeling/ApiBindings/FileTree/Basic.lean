/-!
# File trees

Directories and files as a table from places to what is there.  A place is the names on the way to
it, the innermost first, so that the tail of a place is the directory around it.
-/

namespace ApiBindings

/-! ## Faults of file operations -/

/-- A fault of an operation on files. -/
inductive FileError where
  | notFound
  | notADirectory
  | alreadyExists
  | isADirectory
  /-- A name or a path that is too long. -/
  | nameTooLong
  /-- A file that is read as text holds something else. -/
  | notText
  /-- What was asked for makes no sense, with the reason. -/
  | refused (reason : String)
  /-- Any other fault, as the system describes it. -/
  | other (description : String)
  deriving Repr, DecidableEq

/-- The text shown for a fault. Those that the system reports come with its number for them. -/
def FileError.message : FileError → String
  | .notFound => "No such file or directory (os error 2)"
  | .notADirectory => "Not a directory (os error 20)"
  | .alreadyExists => "File exists (os error 17)"
  | .isADirectory => "Is a directory (os error 21)"
  | .nameTooLong => "File name too long (os error 36)"
  | .notText => "stream did not contain valid UTF-8"
  | .refused reason => reason
  | .other description => description

/-! ## Trees -/

/-- The names on the way to a file or directory, innermost first. -/
abbrev Location := List (List Char)

/-- What a tree has at a place. -/
inductive FileEntry where
  | directory
  | file (contents : ByteArray)

/-- The files and directories below a root, and the directory that relative paths start from. -/
structure FileTree where
  entries : List (Location × FileEntry) := []
  workingDirectory : Location := []

namespace FileTree

/-- What is at a place. The root is always a directory. -/
def find? (tree : FileTree) : Location → Option FileEntry
  | [] => some .directory
  | place => tree.entries.lookup place

/-- Whether there is a directory at a place. -/
def isDirectory (tree : FileTree) (place : Location) : Bool :=
  match tree.find? place with
  | some .directory => true
  | _ => false

/-- Put an entry at its place in a table, in place of what is there. -/
def insertEntry (place : Location) (entry : FileEntry) :
    List (Location × FileEntry) → List (Location × FileEntry)
  | [] => [(place, entry)]
  | (other, old) :: rest =>
      if place = other then (place, entry) :: rest
      else (other, old) :: insertEntry place entry rest

/-- Put an entry at a place. -/
def insert (tree : FileTree) (place : Location) (entry : FileEntry) : FileTree :=
  { tree with entries := insertEntry place entry tree.entries }

theorem lookup_insertEntry (place other : Location) (entry : FileEntry)
    (entries : List (Location × FileEntry)) :
    (insertEntry place entry entries).lookup other =
      if other = place then some entry else entries.lookup other := by
  induction entries with
  | nil =>
      by_cases h : other = place
      · simp [insertEntry, h]
      · have away : (other == place) = false := by simpa using h
        simp [insertEntry, List.lookup_cons, away, h]
  | cons head rest ih =>
      obtain ⟨first, old⟩ := head
      by_cases same : place = first
      · subst same
        by_cases h : other = place
        · simp [insertEntry, h]
        · have away : (other == place) = false := by simpa using h
          simp [insertEntry, List.lookup_cons, away, h]
      · by_cases h : other = first
        · subst h
          have apart : ¬ other = place := fun e => same e.symm
          simp [insertEntry, same, apart]
        · have away : (other == first) = false := by simpa using h
          simp [insertEntry, same, List.lookup_cons, away, ih]

/-- A tree has what was put at a place last, and elsewhere what it had before. -/
@[simp] theorem find?_insert (tree : FileTree) (name : List Char) (around other : Location)
    (entry : FileEntry) :
    (tree.insert (name :: around) entry).find? other =
      if other = name :: around then some entry else tree.find? other := by
  cases other with
  | nil => simp [find?]
  | cons first rest => exact lookup_insertEntry _ _ _ _

end FileTree

end ApiBindings
