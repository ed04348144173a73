import ApiBindings.Text.Basic
import ApiBindings.Toml.Value

/-!
# Values that are words

Numbers, truth values and moments: what is neither quoted nor bracketed.
-/

namespace ApiBindings.Toml

/-- The characters of such words. -/
def isWordChar (c : Char) : Bool :=
  c.isAlphanum || c == '_' || c == '+' || c == '-' || c == '.' || c == ':'

/-- Take the underscores out of a row of digits. Each must stand between two digits. -/
def ungroup? (isDigit : Char → Bool) : List Char → Option (List Char)
  | [] => none
  | [c] => if isDigit c then some [c] else none
  | c :: '_' :: rest => if isDigit c then (ungroup? isDigit rest).map (c :: ·) else none
  | c :: rest => if isDigit c then (ungroup? isDigit rest).map (c :: ·) else none

/-- A word without its sign. -/
def dropSign : List Char → List Char
  | '+' :: rest | '-' :: rest => rest
  | word => word

/-- The digits of a decimal whole part, which has no needless zeros. -/
def wholeDigits? (word : List Char) : Option (List Char) := do
  let digits ← ungroup? Char.isDigit word
  if digits.head? == some '0' && digits.length != 1 then none else return digits

/-- The value of digits to a base. -/
def valueOfDigits (base : Nat) (digits : List Char) : Nat :=
  digits.foldl (fun value c => base * value + (Text.hexValue? c).getD 0) 0

/-- The value of digits to a base that may be grouped by underscores. -/
def natural? (base : Nat) (word : List Char) : Option Nat := do
  let isDigit (c : Char) : Bool := (Text.hexValue? c).any (· < base)
  return valueOfDigits base (← ungroup? isDigit word)

/-- The integer that a word spells, whatever its size. -/
def unboundedInteger? : List Char → Option Int
  | '0' :: 'x' :: digits => (natural? 16 digits).map Int.ofNat
  | '0' :: 'o' :: digits => (natural? 8 digits).map Int.ofNat
  | '0' :: 'b' :: digits => (natural? 2 digits).map Int.ofNat
  | word => do
      let size := valueOfDigits 10 (← wholeDigits? (dropSign word))
      return if word.head? == some '-' then -(size : Int) else size

/-- The integer that a word spells, if it fits into 64 bits. -/
def integer? (word : List Char) : Option Int := do
  let value ← unboundedInteger? word
  if -0x8000000000000000 ≤ value && value < 0x8000000000000000 then return value else none

/-- The exponent that a text spells, `0` if the text is empty. -/
def exponent? : List Char → Option Int
  | [] => some 0
  | e :: rest => do
      if e != 'e' && e != 'E' then none
      else
        let size : Int := Text.decimalValue (← ungroup? Char.isDigit (dropSign rest))
        return if rest.head? == some '-' then -size else size

/-- The number that a word without a sign spells as a float: a whole part with a fraction, an
exponent or both. -/
def decimal? (word : List Char) : Option Text.Decimal := do
  let isPart (c : Char) : Bool := c.isDigit || c == '_'
  let whole ← wholeDigits? (word.takeWhile isPart)
  match word.dropWhile isPart with
  | [] => none
  | '.' :: more =>
      let fraction ← ungroup? Char.isDigit (more.takeWhile isPart)
      let exponent ← exponent? (more.dropWhile isPart)
      return ⟨whole ++ fraction, exponent - fraction.length⟩
  | rest => return ⟨whole, ← exponent? rest⟩

/-- Whether a word spells a float. A number that rounds to no finite one may stand below zero, where
it is minus infinity, and not above. -/
def isFloat (word : List Char) : Bool :=
  let unsigned := dropSign word
  unsigned == "inf".toList || unsigned == "nan".toList ||
    (decimal? unsigned).any fun number => word.head? == some '-' || number.isFinite

/-- The value that a word stands for. -/
def Value.ofWord? (word : List Char) : Option Value :=
  if word == "true".toList then some (.boolean true)
  else if word == "false".toList then some (.boolean false)
  else if Moment.isMoment word then some (.moment (String.ofList word))
  else if isFloat word then some (.float (String.ofList word))
  else (integer? word).map .integer

/-- Read a word. A date goes on behind one space if a time follows there. -/
def readWord? (text : List Char) : Option (Value × List Char) := do
  let word := text.takeWhile isWordChar
  let after := text.dropWhile isWordChar
  match after with
  | ' ' :: rest =>
      if Moment.isDate word && rest.head?.any isWordChar then
        let longer := word ++ ' ' :: rest.takeWhile isWordChar
        return (← Value.ofWord? longer, rest.dropWhile isWordChar)
      else return (← Value.ofWord? word, after)
  | _ => return (← Value.ofWord? word, after)

end ApiBindings.Toml
