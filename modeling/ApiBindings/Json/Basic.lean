import ApiBindings.Text.Basic

/-!
# JSON documents

A document is kept as it was written: the text of a string and the size of a number are looked at
only where a reader asks for them.  What nobody asks for has to be well formed as syntax and no
more.
-/

namespace ApiBindings

/-- A JSON value. Strings, keys and numbers hold their spelling, quotes left out. -/
inductive Json where
  | null
  | bool (value : Bool)
  | number (spelling : List Char)
  | string (spelling : List Char)
  | array (items : List Json)
  | object (members : List (List Char × Json))
  deriving Repr, Inhabited

namespace Json

mutual

/-- How many arrays and objects lie inside one another at most. -/
def height : Json → Nat
  | .array items => heightOfItems items + 1
  | .object members => heightOfMembers members + 1
  | _ => 0

/-- The height of the highest item. -/
def heightOfItems : List Json → Nat
  | [] => 0
  | item :: rest => max item.height (heightOfItems rest)

/-- The height of the highest member. -/
def heightOfMembers : List (List Char × Json) → Nat
  | [] => 0
  | (_, value) :: rest => max value.height (heightOfMembers rest)

end

end Json

end ApiBindings

namespace ApiBindings.Json

/-!
## Spelling of strings and numbers

`spell` writes a text with as few escapes as the format allows.  `unspell?` reads any spelling; it
refuses half of a surrogate pair, which stands for no character.
-/

open ApiBindings.Text

/-- One character as JSON spells it: quotes, backslashes and the characters below the space are
escaped. -/
def spellChar (c : Char) : List Char :=
  if c == '"' then ['\\', '"']
  else if c == '\\' then ['\\', '\\']
  else if c == '\x08' then ['\\', 'b']
  else if c == '\t' then ['\\', 't']
  else if c == '\n' then ['\\', 'n']
  else if c == '\x0c' then ['\\', 'f']
  else if c == '\r' then ['\\', 'r']
  else if c.toNat < 0x20 then '\\' :: 'u' :: hexQuad c.toNat
  else [c]

/-- The spelling of a text. -/
def spell (text : List Char) : List Char :=
  text.flatMap spellChar

/-- The character that a short escape stands for. -/
def shortEscape? (c : Char) : Option Char :=
  if c == '"' || c == '\\' || c == '/' then some c
  else if c == 'b' then some '\x08'
  else if c == 'f' then some '\x0c'
  else if c == 'n' then some '\n'
  else if c == 'r' then some '\r'
  else if c == 't' then some '\t'
  else none

/-- Whether a unit is the first half of a surrogate pair. -/
def isHighSurrogate (unit : Nat) : Bool :=
  0xD800 ≤ unit && unit < 0xDC00

/-- Whether a unit is the second half of a surrogate pair. -/
def isLowSurrogate (unit : Nat) : Bool :=
  0xDC00 ≤ unit && unit < 0xE000

/-- The character of a surrogate pair. -/
def pairChar (high low : Nat) : Char :=
  Char.ofNat (0x10000 + (high - 0xD800) * 0x400 + (low - 0xDC00))

/-- What a spelling is made of: characters, and units given by their number. -/
inductive Piece where
  | char (c : Char)
  | unit (value : Nat)
  deriving Repr, DecidableEq

/-- The pieces of a spelling. -/
def pieces? : List Char → Option (List Piece)
  | [] => some []
  | '\\' :: 'u' :: a :: b :: c :: d :: rest => do
      return .unit (← hexQuadValue? a b c d) :: (← pieces? rest)
  | '\\' :: c :: rest => do
      return .char (← shortEscape? c) :: (← pieces? rest)
  | c :: rest => do
      return .char c :: (← pieces? rest)

/-- The characters that pieces stand for: two surrogates make one character, in that order and next
to each other, and have no meaning apart. -/
def joinPieces? : List Piece → Option (List Char)
  | [] => some []
  | .char c :: rest => (joinPieces? rest).map (c :: ·)
  | .unit unit :: .unit next :: rest =>
      if isHighSurrogate unit then
        if isLowSurrogate next then (joinPieces? rest).map (pairChar unit next :: ·) else none
      else if isLowSurrogate unit then none
      else (joinPieces? (.unit next :: rest)).map (Char.ofNat unit :: ·)
  | .unit unit :: rest =>
      if isHighSurrogate unit || isLowSurrogate unit then none
      else (joinPieces? rest).map (Char.ofNat unit :: ·)

/-- The text that a spelling stands for. -/
def unspell? (spelling : List Char) : Option (List Char) := do
  joinPieces? (← pieces? spelling)

/-- A string value with a given text. -/
def ofText (text : String) : Json :=
  .string (spell text.toList)

/-- The text of a string value. -/
def text? : Json → Option String
  | .string spelling => (unspell? spelling).map String.ofList
  | _ => none

/-- The number that digits alone spell. A sign, a fraction or an exponent makes a number no longer
natural, whatever its size. -/
def natural? : Json → Option Nat
  | .number spelling => if spelling.all Char.isDigit then some (decimalValue spelling) else none
  | _ => none

/-- The parts of a number: the digits of the whole part and of the fraction, and the exponent. The
sign of the number is not kept. -/
structure Numeral where
  whole : List Char
  fraction : List Char
  exponent : Int
  deriving Repr

/-- The exponent that ends a number, `0` where there is none. -/
def exponent? : List Char → Option Int
  | [] => some 0
  | e :: rest =>
      let negative := rest.head? == some '-'
      let digits := if negative || rest.head? == some '+' then rest.drop 1 else rest
      if (e == 'e' || e == 'E') && !digits.isEmpty && digits.all Char.isDigit then
        some (if negative then -(decimalValue digits : Int) else decimalValue digits)
      else none

/-- Take a number apart: a sign, a whole part without needless zeros, a fraction and an exponent,
where only the whole part has to be there. -/
def Numeral.parse? (spelling : List Char) : Option Numeral :=
  let unsigned := if spelling.head? == some '-' then spelling.drop 1 else spelling
  let whole := unsigned.takeWhile Char.isDigit
  let rest := unsigned.dropWhile Char.isDigit
  if whole.isEmpty || (whole.head? == some '0' && whole.length != 1) then none
  else if rest.head? == some '.' then
    let fraction := (rest.drop 1).takeWhile Char.isDigit
    if fraction.isEmpty then none
    else (exponent? ((rest.drop 1).dropWhile Char.isDigit)).map (⟨whole, fraction, ·⟩)
  else (exponent? rest).map (⟨whole, [], ·⟩)

/-- Add digits to the end of a value as long as it stays below 2⁶⁴: the value that comes of it, and
the digits that are left. -/
def gather : (value : Nat) → List Char → Nat × List Char
  | value, [] => (value, [])
  | value, c :: rest =>
      let longer := 10 * value + (c.toNat - 48)
      if longer < 0x10000000000000000 then gather longer rest else (value, c :: rest)

/-- Whether a number is read as a finite one. Only digits that fit into 64 bits count, taken from
the front of the whole part and then from the front of the fraction. They are rounded to double
precision, and so is the power of ten that they are multiplied by. -/
def Numeral.isFinite (numeral : Numeral) : Bool :=
  let (whole, beyond) := gather 0 numeral.whole
  let (digits, unused) := gather whole numeral.fraction
  let shift : Int := beyond.length + unused.length - numeral.fraction.length
  let exponent := numeral.exponent + shift
  if digits == 0 || exponent < 0 then true
  else if 308 < exponent then false
  else toDoublePrecision digits * toDoublePrecision (Nat.pow 10 exponent.toNat) < doubleLimit

mutual

/-- Whether every text of a document can be read and every number is in range. -/
def isReadable : Json → Bool
  | .number spelling => (Numeral.parse? spelling).any Numeral.isFinite
  | .string spelling => (unspell? spelling).isSome
  | .array items => areItemsReadable items
  | .object members => areMembersReadable members
  | _ => true

/-- Whether every item is readable. -/
def areItemsReadable : List Json → Bool
  | [] => true
  | item :: rest => item.isReadable && areItemsReadable rest

/-- Whether every key and every member is readable. -/
def areMembersReadable : List (List Char × Json) → Bool
  | [] => true
  | (key, value) :: rest => (unspell? key).isSome && value.isReadable && areMembersReadable rest

end

end ApiBindings.Json
