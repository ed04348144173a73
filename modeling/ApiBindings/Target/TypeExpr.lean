/-!
# Target types

TypeScript type expressions and their text.
-/

namespace ApiBindings.Target

/-- The built-in types that generated code uses. -/
inductive Primitive where
  | string
  | number
  | boolean
  | null
  | void
  deriving Repr, DecidableEq

/-- The keyword of a built-in type. -/
def Primitive.text : Primitive → String
  | .string => "string"
  | .number => "number"
  | .boolean => "boolean"
  | .null => "null"
  | .void => "void"

/-- A type expression. -/
inductive TypeExpr where
  | primitive (type : Primitive)
  | array (element : TypeExpr)
  | union (members : List TypeExpr)
  | record (key value : TypeExpr)
  /-- A type known by its name alone. -/
  | reference (name : String)
  /-- A generic type with its arguments. -/
  | generic (name : String) (arguments : List TypeExpr)
  deriving Repr, Inhabited

namespace TypeExpr

/-- The type of `null`. -/
def null : TypeExpr :=
  .primitive .null

/-- Whether a type is a union. -/
def isUnion : TypeExpr → Bool
  | .union _ => true
  | _ => false

mutual

/-- Whether a type admits `null`. -/
def isNullable : TypeExpr → Bool
  | .primitive .null => true
  | .union members => anyNullable members
  | _ => false

/-- Whether one of several types admits `null`. -/
def anyNullable : List TypeExpr → Bool
  | [] => false
  | type :: rest => type.isNullable || anyNullable rest

end

/-- A type that admits `null` and otherwise what it did. -/
def orNull (type : TypeExpr) : TypeExpr :=
  if type.isNullable then type
  else match type with
    | .union members => .union (members ++ [null])
    | other => .union [other, null]

/-- Put separators between texts. -/
def separated (separator : List Char) : List (List Char) → List Char
  | [] => []
  | [text] => text
  | text :: rest => text ++ separator ++ separated separator rest

mutual

/-- The characters of a type expression. The element of an array is put in parentheses if it is a
union, because `[]` binds closer than `|`. -/
def chars : TypeExpr → List Char
  | .primitive type => type.text.toList
  | .array element =>
      if element.isUnion then '(' :: element.chars ++ [')', '[', ']']
      else element.chars ++ ['[', ']']
  | .union members => separated [' ', '|', ' '] (charsOfAll members)
  | .record key value =>
      ['R', 'e', 'c', 'o', 'r', 'd', '<'] ++ key.chars ++ [',', ' '] ++ value.chars ++ ['>']
  | .reference name => name.toList
  | .generic name arguments =>
      name.toList ++ '<' :: separated [',', ' '] (charsOfAll arguments) ++ ['>']

/-- The characters of several type expressions. -/
def charsOfAll : List TypeExpr → List (List Char)
  | [] => []
  | type :: rest => type.chars :: charsOfAll rest

end

/-- The text of a type expression. -/
def text (type : TypeExpr) : String :=
  String.ofList type.chars

end TypeExpr

end ApiBindings.Target
