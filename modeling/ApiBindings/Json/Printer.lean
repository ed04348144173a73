import ApiBindings.Json.Basic

/-!
# Printing JSON

Two layouts: `compact` without any gaps, and `indented` with one item or member a line, two spaces
for each level, and empty containers closed at once.
-/

namespace ApiBindings.Json

/-- A spelling between quotes. -/
def quoted (spelling : List Char) : List Char :=
  '"' :: spelling ++ ['"']

/-- The text of a value that is no container. -/
def scalarText : Json → List Char
  | .null => ['n', 'u', 'l', 'l']
  | .bool true => ['t', 'r', 'u', 'e']
  | .bool false => ['f', 'a', 'l', 's', 'e']
  | .number spelling => spelling
  | .string spelling => quoted spelling
  | _ => []

mutual

/-- The text of a value without gaps. -/
def compactChars : Json → List Char
  | .array items => '[' :: compactItems items
  | .object members => '\x7b' :: compactMembers members
  | value => value.scalarText

/-- The items of an array and its end. -/
def compactItems : List Json → List Char
  | [] => [']']
  | [item] => item.compactChars ++ [']']
  | item :: rest => item.compactChars ++ ',' :: compactItems rest

/-- The members of an object and its end. -/
def compactMembers : List (List Char × Json) → List Char
  | [] => ['\x7d']
  | [(key, value)] => quoted key ++ ':' :: value.compactChars ++ ['\x7d']
  | (key, value) :: rest =>
      quoted key ++ ':' :: value.compactChars ++ ',' :: compactMembers rest

end

/-- The text of a value without gaps. -/
def compact (value : Json) : String :=
  String.ofList value.compactChars

/-- A new line at a level of indentation. -/
def newLine (level : Nat) : List Char :=
  '\n' :: List.replicate (2 * level) ' '

mutual

/-- The text of a value whose first line is at a level of indentation. -/
def indentedChars (level : Nat) : Json → List Char
  | .array [] => ['[', ']']
  | .array (item :: rest) => '[' :: indentedItems level (item :: rest)
  | .object [] => ['\x7b', '\x7d']
  | .object (member :: rest) => '\x7b' :: indentedMembers level (member :: rest)
  | value => value.scalarText

/-- The items of an array, each on a line, and its end. -/
def indentedItems (level : Nat) : List Json → List Char
  | [] => newLine level ++ [']']
  | [item] => newLine (level + 1) ++ item.indentedChars (level + 1) ++ newLine level ++ [']']
  | item :: rest =>
      newLine (level + 1) ++ item.indentedChars (level + 1) ++ ',' :: indentedItems level rest

/-- The members of an object, each on a line, and its end. -/
def indentedMembers (level : Nat) : List (List Char × Json) → List Char
  | [] => newLine level ++ ['\x7d']
  | [(key, value)] =>
      newLine (level + 1) ++ quoted key ++ ':' :: ' ' :: value.indentedChars (level + 1) ++
        newLine level ++ ['\x7d']
  | (key, value) :: rest =>
      newLine (level + 1) ++ quoted key ++ ':' :: ' ' :: value.indentedChars (level + 1) ++
        ',' :: indentedMembers level rest

end

/-- The text of a value over several lines. -/
def indented (value : Json) : String :=
  String.ofList (value.indentedChars 0)

end ApiBindings.Json
