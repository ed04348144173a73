/-!
# Paths

Paths as texts in the manner of Unix.  Joining never tidies a path up; comparing does, by looking at
the parts a path is made of.
-/

namespace ApiBindings

/-- A path as it is written: a Unicode text. Paths of other bytes, which a system may have for a
root, are not modelled. -/
structure Path where
  text : String
  deriving Repr, DecidableEq, Inhabited

namespace Path

/-- Cut a text at every slash. -/
def splitSlashes : List Char → List (List Char)
  | [] => [[]]
  | c :: rest =>
      match c == '/', splitSlashes rest with
      | true, segments => [] :: segments
      | false, segment :: segments => (c :: segment) :: segments
      | false, [] => [[c]]

/-- Put slashes between segments. -/
def joinSlashes : List (List Char) → List Char
  | [] => []
  | [segment] => segment
  | segment :: rest => segment ++ '/' :: joinSlashes rest

/-- Whether a path starts at the root. -/
def isAbsolute (path : Path) : Bool :=
  path.text.toList.head? == some '/'

/-- Go on from a path. An absolute path starts anew; otherwise there is one slash between the two,
unless the first is empty or ends with one. -/
def join (path : Path) (next : String) : Path :=
  let first := path.text.toList
  if next.toList.head? == some '/' then ⟨next⟩
  else if first.isEmpty || first.getLast? == some '/' then ⟨path.text ++ next⟩
  else ⟨path.text ++ "/" ++ next⟩

/-- Segments that lead nowhere: an empty one and a single dot. -/
def isIdle (segment : List Char) : Bool :=
  segment.isEmpty || segment == ['.']

/-- The parts of a path: the root if it starts there, then the segments that lead somewhere. A dot
in front of a relative path is a part of it. -/
def parts (path : Path) : List (List Char) :=
  let segments := splitSlashes path.text.toList
  let start :=
    if path.isAbsolute then [['/']]
    else if segments.head? == some ['.'] then [['.']]
    else []
  start ++ segments.filter (!isIdle ·)

/-- Whether two paths have the same parts. -/
def same (first second : Path) : Bool :=
  first.parts == second.parts

/-- The last part of a path, if it names a file or directory. -/
def fileName? (path : Path) : Option (List Char) :=
  match path.parts.getLast? with
  | some part => if part == ['/'] || part == ['.'] || part == ['.', '.'] then none else some part
  | none => none

/-- What follows the last dot of a name. A name that only starts with a dot has no extension. -/
def extensionOf? (name : List Char) : Option (List Char) :=
  let extension := (name.reverse.takeWhile (· != '.')).reverse
  let stem := name.take (name.length - extension.length - 1)
  if extension.length == name.length || stem.isEmpty then none else some extension

/-- The extension of a path's last part. -/
def extension? (path : Path) : Option String := do
  return String.ofList (← extensionOf? (← path.fileName?))

/-- Leave out the last part that leads somewhere, and the idle segments around it. -/
def dropLastPart (segments : List (List Char)) : Option (List (List Char)) :=
  match segments.reverse.dropWhile isIdle with
  | [] => none
  | _ :: rest => some (rest.dropWhile isIdle).reverse

/-- The path without its last part. The root and the empty path have no parent. -/
def parent? (path : Path) : Option Path :=
  match splitSlashes path.text.toList with
  | [] => none
  | first :: rest =>
      match dropLastPart rest with
      | some [] => some ⟨if path.isAbsolute then "/" else String.ofList first⟩
      | some kept => some ⟨String.ofList (joinSlashes (first :: kept))⟩
      | none => if first.isEmpty then none else some ⟨""⟩

/-- A path and the directories around it, at most `count` of them. -/
def around (path : Path) : Nat → List Path
  | 0 => []
  | count + 1 =>
      match path.parent? with
      | none => []
      | some parent => path :: parent.around count

/-- A path and the directories around it that it names, the innermost first. The root is not among
them, nor is the directory that a relative path starts from. -/
def directories (path : Path) : List Path :=
  path.around path.text.length

end Path

end ApiBindings
