import ApiBindings.Text.Basic

/-!
# Strings

Strings on one line or on several, with escapes or without.  Line ends are single line feeds here; a
document is brought to that form before it is read.
-/

namespace ApiBindings.Toml

/-- Blanks within a line. -/
def isBlank (c : Char) : Bool :=
  c == ' ' || c == '\t'

/-- Characters that may stand on a line: all but the ASCII control characters other than the tab. -/
def isPlain (c : Char) : Bool :=
  c == '\t' || (0x20 ≤ c.toNat && c.toNat != 0x7F)

/-- Make a single line feed of each line end. -/
def unifyLineEnds : List Char → List Char
  | [] => []
  | '\r' :: '\n' :: rest => '\n' :: unifyLineEnds rest
  | c :: rest => c :: unifyLineEnds rest

/-! ### Where a string ends -/

/-- Split a text on one line at its closing quote. Where there are escapes, an escaped quote closes
nothing. -/
def splitLine (quote : Char) (escapes : Bool) : List Char → Option (List Char × List Char)
  | [] => none
  | c :: rest =>
      if c == quote then some ([], rest)
      else if !isPlain c then none
      else if escapes && c == '\\' then
        match rest with
        | [] => none
        | d :: rest =>
            if isPlain d then
              (splitLine quote escapes rest).map fun (text, after) => (c :: d :: text, after)
            else none
      else (splitLine quote escapes rest).map fun (text, after) => (c :: text, after)

/-- Three quotes close a text on several lines. One or two more right before them belong to the
text. -/
def closing? (quote : Char) (text : List Char) : Option (List Char × List Char) :=
  let quotes := (text.takeWhile (· == quote)).length
  if quotes < 3 then none
  else
    let own := min quotes 5 - 3
    some (List.replicate own quote, text.drop (own + 3))

/-- Split a text on several lines at its closing quotes. -/
def splitLines (quote : Char) (escapes : Bool) : List Char → Option (List Char × List Char)
  | [] => none
  | c :: rest =>
      match closing? quote (c :: rest) with
      | some closed => some closed
      | none =>
          if c != '\n' && !isPlain c then none
          else if escapes && c == '\\' then
            match rest with
            | [] => none
            | d :: rest =>
                (splitLines quote escapes rest).map fun (text, after) => (c :: d :: text, after)
          else (splitLines quote escapes rest).map fun (text, after) => (c :: text, after)

/-! ### Escapes -/

/-- The character that a letter stands for after a backslash. -/
def shortEscape? : Char → Option Char
  | 'b' => some '\x08'
  | 't' => some '\t'
  | 'n' => some '\n'
  | 'f' => some '\x0c'
  | 'r' => some '\r'
  | '"' => some '"'
  | '\\' => some '\\'
  | _ => none

/-- The character with a code point. Surrogates have none. -/
def charOf? (codePoint : Nat) : Option Char :=
  if codePoint.isValidChar then some (Char.ofNat codePoint) else none

/-- Where a text stands while its escapes are replaced. -/
inductive Place where
  | plain
  /-- In blanks behind a backslash, up to the line end that must come. -/
  | blanks
  /-- In blanks and line ends behind an escaped line end. -/
  | lines
  deriving DecidableEq, Repr

/-- Replace the escapes of a text by what they stand for. A backslash at the end of a line stands
for nothing, and neither do the blanks around that line end and the line ends after it. -/
def unescape? (place : Place) : List Char → Option (List Char)
  | [] => if place = .blanks then none else some []
  | c :: rest =>
      if place = .blanks && c != '\n' then
        if isBlank c then unescape? .blanks rest else none
      else if place = .blanks || (place = .lines && (isBlank c || c == '\n')) then
        unescape? .lines rest
      else if c != '\\' then (unescape? .plain rest).map (c :: ·)
      else
        match rest with
        | [] => none
        | 'u' :: a :: b :: c :: d :: rest => do
            return (← charOf? (← Text.hexQuadValue? a b c d)) :: (← unescape? .plain rest)
        | 'U' :: a :: b :: c :: d :: e :: f :: g :: h :: rest => do
            let high ← Text.hexQuadValue? a b c d
            let low ← Text.hexQuadValue? e f g h
            return (← charOf? (65536 * high + low)) :: (← unescape? .plain rest)
        | d :: rest =>
            if d == '\n' then unescape? .lines rest
            else if isBlank d then unescape? .blanks rest
            else do return (← shortEscape? d) :: (← unescape? .plain rest)

/-- What the text between the quotes of a string stands for. -/
def decode? (escapes : Bool) (text : List Char) : Option (List Char) :=
  if escapes then unescape? .plain text else some text

/-! ### Reading -/

/-- Read a string on one line, from behind its opening quote. -/
def readLine? (quote : Char) (text : List Char) : Option (String × List Char) := do
  let escapes := quote == '"'
  let (inside, after) ← splitLine quote escapes text
  return (String.ofList (← decode? escapes inside), after)

/-- Read a string on several lines, from behind its opening quotes. A line end right there is no
part of it. -/
def readLines? (quote : Char) (text : List Char) : Option (String × List Char) := do
  let escapes := quote == '"'
  let text := if text.head? == some '\n' then text.drop 1 else text
  let (inside, after) ← splitLines quote escapes text
  return (String.ofList (← decode? escapes inside), after)

/-- Read a string of either sort, from behind its first quote. -/
def readString? (quote : Char) : List Char → Option (String × List Char)
  | c :: d :: rest =>
      if c == quote && d == quote then readLines? quote rest else readLine? quote (c :: d :: rest)
  | text => readLine? quote text

end ApiBindings.Toml
