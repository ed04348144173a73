import ApiBindings.Toml.Scalar
import ApiBindings.Toml.Table
import ApiBindings.Toml.Text

/-!
# Reading TOML documents

A document is read statement by statement, each on a line of its own.  Readers take text from the
front and leave the rest.  Loops are bounded by the length of the document: each of their rounds
takes at least one character.
-/

namespace ApiBindings.Toml

/-- How many arrays and tables may be open at once within a value, and how many keys a dotted key
may have. -/
def maxLevels : Nat := 79

/-- Readers of a text that may fail. -/
abbrev Reader := StateT (List Char) Option

namespace Reader

/-- The next character. -/
def next? : Reader (Option Char) := do
  return (← get).head?

/-- Take one character. -/
def skip : Reader Unit :=
  modify (·.drop 1)

/-- Take a character that must be there. -/
def expect (c : Char) : Reader Unit := do
  if (← next?) == some c then skip else failure

/-- Take the blanks. -/
def skipBlanks : Reader Unit :=
  modify (·.dropWhile isBlank)

/-- Take the rest of a line: blanks, a comment, and the line end or the end of the document. -/
def endLine : Reader Unit := do
  skipBlanks
  if (← next?) == some '#' then modify (·.dropWhile isPlain)
  if (← next?).isSome then expect '\n'

/-- The text behind blanks, line ends and comments; `inComment` says whether it starts in a
comment. -/
def dropGaps? (inComment : Bool) : List Char → Option (List Char)
  | [] => if inComment then none else some []
  | c :: rest =>
      if inComment then
        if c == '\n' then dropGaps? false rest
        else if isPlain c then dropGaps? true rest
        else none
      else if isBlank c || c == '\n' then dropGaps? false rest
      else if c == '#' then dropGaps? true rest
      else some (c :: rest)

/-- Take blanks, line ends and comments. -/
def skipGaps : Reader Unit := do
  match dropGaps? false (← get) with
  | some rest => set rest
  | none => failure

/-- Take a string, from behind its first quote. -/
def quoted (read? : List Char → Option (String × List Char)) : Reader String := do
  match read? (← get) with
  | some (text, rest) =>
      set rest
      return text
  | none => failure

/-! ### Keys -/

/-- The characters of keys without quotes. -/
def isKeyChar (c : Char) : Bool :=
  c.isAlphanum || c == '_' || c == '-'

/-- Take one key. -/
def simpleKey : Reader String := do
  match ← next? with
  | some '"' =>
      skip
      quoted (readLine? '"')
  | some '\'' =>
      skip
      quoted (readLine? '\'')
  | _ =>
      let text ← get
      let name := text.takeWhile isKeyChar
      if name.isEmpty then failure
      set (text.dropWhile isKeyChar)
      return String.ofList name

/-- Take keys with dots between them, in `rounds` rounds at most: those on the way, and the last. -/
def keys : (rounds : Nat) → Reader (List String × String)
  | 0 => failure
  | rounds + 1 => do
      skipBlanks
      let key ← simpleKey
      skipBlanks
      if (← next?) == some '.' then
        skip
        let (way, last) ← keys rounds
        return (key :: way, last)
      else return ([], key)

/-- Take a dotted key that is not too long. -/
def dottedKey (rounds : Nat) : Reader (List String × String) := do
  let (way, last) ← keys rounds
  if way.length < maxLevels then return (way, last) else failure

/-! ### Values -/

/-- Take a word. -/
def word : Reader Value := do
  match readWord? (← get) with
  | some (value, rest) =>
      set rest
      return value
  | none => failure

mutual

/-- Take a value in which `levels` more arrays and tables may be open at once. -/
def value (levels : Nat) : (rounds : Nat) → Reader Value
  | 0 => failure
  | rounds + 1 => do
      match ← next?, levels with
      | some '"', _ =>
          skip
          return .string (← quoted (readString? '"'))
      | some '\'', _ =>
          skip
          return .string (← quoted (readString? '\''))
      | some '[', 0 | some '\x7b', 0 => failure
      | some '[', inside + 1 =>
          skip
          return .array (← items inside rounds)
      | some '\x7b', inside + 1 =>
          skip
          skipBlanks
          if (← next?) == some '\x7d' then
            skip
            return .table []
          else
            match tableOf? (← members inside rounds) with
            | some table => return table
            | none => failure
      | _, _ => word

/-- Take the items of an array and its end. A comma may follow the last item. -/
def items (levels : Nat) : (rounds : Nat) → Reader (List Value)
  | 0 => failure
  | rounds + 1 => do
      skipGaps
      if (← next?) == some ']' then
        skip
        return []
      else
        let item ← value levels rounds
        skipGaps
        if (← next?) == some ',' then
          skip
          return item :: (← items levels rounds)
        else
          expect ']'
          return [item]

/-- Take the members of a table that is written as a value, and its end. They are on one line. -/
def members (levels : Nat) : (rounds : Nat) → Reader (List Assignment)
  | 0 => failure
  | rounds + 1 => do
      let (way, key) ← dottedKey rounds
      expect '='
      skipBlanks
      let member : Assignment := ⟨way, key, ← value levels rounds⟩
      skipBlanks
      if (← next?) == some ',' then
        skip
        return member :: (← members levels rounds)
      else
        expect '\x7d'
        return [member]

end

/-! ### Documents -/

/-- Take a header, from behind its first bracket. -/
def header (rounds : Nat) : Reader Header := do
  let repeats := (← next?) == some '['
  if repeats then skip
  let (way, key) ← dottedKey rounds
  expect ']'
  if repeats then expect ']'
  return ⟨way, key, repeats⟩

/-- Take an assignment. -/
def assignment (rounds : Nat) : Reader Assignment := do
  let (way, key) ← dottedKey rounds
  expect '='
  skipBlanks
  return ⟨way, key, ← value maxLevels rounds⟩

/-- Take statements up to the end: the assignments before the first header, and the sections. -/
def statements : (rounds : Nat) → Reader (List Assignment × List Section)
  | 0 => failure
  | rounds + 1 => do
      skipBlanks
      match ← next? with
      | none => return ([], [])
      | some '\n' =>
          skip
          statements rounds
      | some '#' =>
          endLine
          statements rounds
      | some '[' =>
          skip
          let first ← header rounds
          endLine
          let (assignments, sections) ← statements rounds
          return ([], ⟨first, assignments⟩ :: sections)
      | some _ =>
          let first ← assignment rounds
          endLine
          let (assignments, sections) ← statements rounds
          return (first :: assignments, sections)

end Reader

/-- The text of a document without a byte order mark, and with single line feeds. -/
def prepare (text : String) : List Char :=
  match text.toList with
  | '\ufeff' :: rest => unifyLineEnds rest
  | all => unifyLineEnds all

/-- Read a document. -/
def parse? (text : String) : Option (List (String × Value)) := do
  let characters := prepare text
  let ((assignments, sections), _) ← (Reader.statements (characters.length + 1)).run characters
  documentOf? assignments sections

end ApiBindings.Toml
