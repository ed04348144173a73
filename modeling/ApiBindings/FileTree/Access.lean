import ApiBindings.FileTree.Basic
import ApiBindings.Path

/-!
# Access to a file tree by paths

Looking up, reading, writing and creating directories.  A path is followed name by name through
directories that must exist; only what its last name stands for may be missing.
-/

namespace ApiBindings.FileTree

/-- The number of bytes that a text takes. -/
def byteLength (text : List Char) : Nat :=
  (String.ofList text).utf8ByteSize

/-- A name may have at most 255 bytes. -/
def isTooLong (name : List Char) : Bool :=
  255 < byteLength name

/-- Follow one segment from a directory to a directory. -/
def enter (tree : FileTree) (place : Location) (segment : List Char) :
    Except FileError Location :=
  if Path.isIdle segment then .ok place
  else if segment == ['.', '.'] then .ok place.tail
  else if isTooLong segment then .error .nameTooLong
  else
    match tree.find? (segment :: place) with
    | some .directory => .ok (segment :: place)
    | some (.file _) => .error .notADirectory
    | none => .error .notFound

/-- What the last segment of a path asks for. -/
inductive Target where
  /-- A directory that was found on the way: the root, or the end of `.` or `..`. -/
  | directory (place : Location)
  /-- A name in a directory, and whether a slash follows it. -/
  | named (directory : Location) (name : List Char) (slash : Bool)

/-- The target of a path that is read as segments from a directory. -/
def targetFrom (tree : FileTree) (start : Location) (segments : List (List Char)) :
    Except FileError Target :=
  let slashes := segments.reverse.takeWhile (·.isEmpty)
  match segments.reverse.dropWhile (·.isEmpty) with
  | [] => .ok (.directory start)
  | last :: before => do
      let place ← before.reverse.foldlM tree.enter start
      if last == ['.'] then return .directory place
      else if last == ['.', '.'] then return .directory place.tail
      else if isTooLong last then throw .nameTooLong
      else return .named place last (!slashes.isEmpty)

/-- Refuse paths that no file can have. -/
def checkPath (path : Path) : Except FileError Unit :=
  let text := path.text.toList
  if text.contains '\x00' then .error (.refused "file name contained an unexpected NUL byte")
  else if text.isEmpty then .error .notFound
  else if 4095 < byteLength text then .error .nameTooLong
  else .ok ()

/-- The target of a path. -/
def target (tree : FileTree) (path : Path) : Except FileError Target := do
  checkPath path
  tree.targetFrom (if path.isAbsolute then [] else tree.workingDirectory)
    (Path.splitSlashes path.text.toList)

/-- What is at a path. -/
def status (tree : FileTree) (path : Path) : Except FileError FileEntry := do
  match ← tree.target path with
  | .directory _ => return .directory
  | .named around name slash =>
      match tree.find? (name :: around) with
      | none => throw .notFound
      | some .directory => return .directory
      | some (.file contents) =>
          if slash then throw .notADirectory else return .file contents

/-- Whether there is something at a path. -/
def hasPath (tree : FileTree) (path : Path) : Bool :=
  (tree.status path).isOk

/-- Whether there is a directory at a path. -/
def hasDirectory (tree : FileTree) (path : Path) : Bool :=
  match tree.status path with
  | .ok .directory => true
  | _ => false

/-- The contents of the file at a path. -/
def readFile (tree : FileTree) (path : Path) : Except FileError ByteArray := do
  match ← tree.status path with
  | .directory => throw .isADirectory
  | .file contents => return contents

/-- The text of the file at a path. -/
def readText (tree : FileTree) (path : Path) : Except FileError String := do
  match String.fromUTF8? (← tree.readFile path) with
  | some text => return text
  | none => throw .notText

/-- Write a file. The directory around it must exist. -/
def writeFile (tree : FileTree) (path : Path) (contents : ByteArray) :
    Except FileError FileTree := do
  match ← tree.target path with
  | .directory _ => throw .isADirectory
  | .named around name slash =>
      if slash then throw .isADirectory
      else if tree.isDirectory (name :: around) then throw .isADirectory
      else return tree.insert (name :: around) (.file contents)

/-- Create one directory. The directory around it must exist, and nothing may be in its place. -/
def createDirectory (tree : FileTree) (path : Path) : Except FileError FileTree := do
  match ← tree.target path with
  | .directory _ => throw .alreadyExists
  | .named around name _ =>
      match tree.find? (name :: around) with
      | some _ => throw .alreadyExists
      | none => return tree.insert (name :: around) .directory

end ApiBindings.FileTree
