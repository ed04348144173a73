import ApiBindings.Text.LetterCase

/-!
# Identifiers

The names that TypeScript accepts for a declaration or a member, the words it reserves, the faults
that make a name unusable, and the two ways to convert a name: for a member and for a file.
-/

namespace ApiBindings

/-! ## Faults of a name -/

/-- Why a name cannot be used in generated code. -/
inductive NameError where
  /-- Nothing is left of the name to convert. -/
  | empty
  | invalid (name : String)
  | reserved (name : String)
  /-- Two names of one scope become the same name. -/
  | collision (first second converted : String)
  deriving Repr, DecidableEq

/-- The text shown for a name error. -/
def NameError.message : NameError → String
  | .empty => "cannot convert an empty identifier"
  | .invalid name => "'" ++ name ++ "' is not a valid identifier"
  | .reserved name => "'" ++ name ++ "' is a reserved word"
  | .collision first second converted =>
      "'" ++ first ++ "' and '" ++ second ++ "' both convert to '" ++ converted ++ "'"

namespace Identifier

open ApiBindings.Text

/-! ## Legal names -/

/-- Characters an identifier may start with. Other scripts are left out on purpose. -/
def isStart (c : Char) : Bool :=
  c.isAlpha || c == '_' || c == '$'

/-- Characters an identifier may go on with. -/
def isPart (c : Char) : Bool :=
  c.isAlphanum || c == '_' || c == '$'

/-- Whether a list of characters spells an identifier. -/
def isWellFormed : List Char → Bool
  | [] => false
  | c :: rest => isStart c && rest.all isPart

/-- Whether a name is an identifier. A reserved word is one too. -/
def isValid (name : String) : Bool :=
  isWellFormed name.toList

/-- The words that cannot name a declaration or a member. -/
def reservedWords : List String := [
  "break", "case", "catch", "class", "const", "continue", "debugger", "default", "delete", "do",
  "else", "enum", "export", "extends", "false", "finally", "for", "function", "if", "import", "in",
  "instanceof", "new", "null", "return", "super", "switch", "this", "throw", "true", "try",
  "typeof", "var", "void", "while", "with", "yield", "let", "static", "implements", "interface",
  "package", "private", "protected", "public", "await", "async"]

/-- Whether a name is a reserved word. -/
def isReserved (name : String) : Bool :=
  reservedWords.contains name

/-- The name of a declaration is kept as it is, so it has to be an identifier and no reserved
word. -/
def checkDeclared (name : String) : Except NameError Unit :=
  if name.isEmpty then .error .empty
  else if !isValid name then .error (.invalid name)
  else if isReserved name then .error (.reserved name)
  else .ok ()

/-!
## Member case

Properties, methods and parameters are written in camel case.  The run of capitals a name starts
with is lowered, except for a last capital that starts the next word (`URLValue` becomes
`urlValue`); then the name is made a legal one.
-/

/-- Lower a run of capitals from its second character on. The capital in front of a character that
is no capital starts the next word and stays. Only ASCII letters change. -/
def lowerRun : List Char → List Char
  | [] => []
  | [c] => [c.toLower]
  | c :: d :: rest => if isUpper d then c.toLower :: lowerRun (d :: rest) else c :: d :: rest

/-- Lower the first character, and the run of capitals that follows it. -/
def lowerHead : List Char → List Char
  | [] => []
  | [c] => [c.toLower]
  | c :: d :: rest => c.toLower :: (if isUpper d then lowerRun (d :: rest) else d :: rest)

/-- A character no identifier may contain becomes an underscore. -/
def legalize (c : Char) : Char :=
  if isPart c then c else '_'

/-- A digit cannot come first. -/
def guardDigit : List Char → List Char
  | [] => []
  | c :: rest => if c.isDigit then '_' :: c :: rest else c :: rest

/-- A reserved word gets an underscore in front. -/
def guardReserved (name : List Char) : List Char :=
  if isReserved (String.ofList name) then '_' :: name else name

/-- Member case of a name without its leading `@` signs. -/
def memberCase (name : List Char) : List Char :=
  guardReserved (guardDigit ((lowerHead name).map legalize))

/-- The name of a member in camel case. A leading `@` only marks a name that is a keyword where it
comes from; a name of nothing else has no member case. -/
def toMemberCase (name : String) : Except NameError String :=
  match name.toList.dropWhile (· == '@') with
  | [] => .error .empty
  | c :: rest => .ok (String.ofList (memberCase (c :: rest)))

/-!
## File case

Files are named in kebab case: the words of a name in small letters with a hyphen between them.  A
word begins after a separator, where a capital follows a small letter or a digit, and at the last
capital of an acronym when a small letter follows it (`URLValue` has the words `url` and `value`).
-/

/-- The characters that separate words and do not reach the file name. -/
def isSeparator (c : Char) : Bool :=
  c == '_' || c == ' ' || c == '.' || c == '-'

/-- Whether a word begins at `c`, seen between the characters beside it. -/
def beginsWord (previous : Option Char) (c : Char) (next : Option Char) : Bool :=
  isUpper c && previous.any fun p =>
    isLower p || p.isDigit || (isUpper p && next.any isLower)

/-- The small forms of a name's characters, with a hyphen for each separator and in front of each
beginning of a word. -/
def markWords (previous : Option Char) : List Char → List Char
  | [] => []
  | c :: rest =>
      (if isSeparator c then ['-']
      else if beginsWord previous c rest.head? then '-' :: lower c
      else lower c) ++ markWords (some c) rest

/-- Put a character in front of a text without a hyphen at its end and without two in a row. -/
def consTidy (c : Char) (text : List Char) : List Char :=
  if c == '-' && (text.isEmpty || text.head? == some '-') then text else c :: text

/-- One hyphen where there are several, and none at either end. -/
def tidyHyphens (text : List Char) : List Char :=
  (text.foldr consTidy []).dropWhile (· == '-')

/-- File case of a list of characters; empty if it holds separators only. -/
def fileCase (name : List Char) : List Char :=
  tidyHyphens (markWords none name)

/-- The name of a file in kebab case, if anything is left of it. -/
def toFileCase (name : String) : Except NameError String :=
  match fileCase name.toList with
  | [] => .error .empty
  | c :: rest => .ok (String.ofList (c :: rest))

end Identifier

end ApiBindings
