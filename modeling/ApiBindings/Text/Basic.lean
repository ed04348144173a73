/-!
# Characters and digits

Blank and control characters of the whole of Unicode, where the classes of core's `Char` know ASCII
only, and rows of hexadecimal and decimal digits.
-/

namespace ApiBindings.Text

/-! ## Character classes -/

/-- The property `White_Space`. -/
def isBlank (c : Char) : Bool :=
  (0x9 ≤ c.toNat && c.toNat ≤ 0xD) || c.toNat == 0x20 || c.toNat == 0x85 || c.toNat == 0xA0 ||
    c.toNat == 0x1680 || (0x2000 ≤ c.toNat && c.toNat ≤ 0x200A) || c.toNat == 0x2028 ||
    c.toNat == 0x2029 || c.toNat == 0x202F || c.toNat == 0x205F || c.toNat == 0x3000

/-- The control characters: those below the space, the delete character and the 32 after it. -/
def isControl (c : Char) : Bool :=
  c.toNat < 0x20 || (0x7F ≤ c.toNat && c.toNat < 0xA0)

/-- Whether a text holds nothing but blanks; the empty text does. -/
def isBlankText (text : String) : Bool :=
  text.toList.all isBlank

/-!
## Hexadecimal digits

Numbers below 65536 as four small hexadecimal digits, and digits of either case read back.
-/

/-- The digit for a value below 16. -/
def hexDigit (value : Nat) : Char :=
  if value < 10 then Char.ofNat (48 + value) else Char.ofNat (87 + value)

/-- The value of a digit. -/
def hexValue? (c : Char) : Option Nat :=
  if '0' ≤ c && c ≤ '9' then some (c.toNat - 48)
  else if 'a' ≤ c && c ≤ 'f' then some (c.toNat - 87)
  else if 'A' ≤ c && c ≤ 'F' then some (c.toNat - 55)
  else none

/-- Whether a character is a hexadecimal digit. -/
def isHexDigit (c : Char) : Bool :=
  (hexValue? c).isSome

/-- The four digits of a value below 65536. -/
def hexQuad (value : Nat) : List Char :=
  [hexDigit (value / 4096 % 16), hexDigit (value / 256 % 16), hexDigit (value / 16 % 16),
    hexDigit (value % 16)]

/-- The value that four digits stand for. -/
def hexQuadValue? (a b c d : Char) : Option Nat := do
  return 4096 * (← hexValue? a) + 256 * (← hexValue? b) + 16 * (← hexValue? c) + (← hexValue? d)

/-!
## Decimal numbers

Rows of decimal digits, and which decimal numbers are within the range of double precision.
-/

/-- The value of a row of decimal digits. -/
def decimalValue (digits : List Char) : Nat :=
  digits.foldl (fun value c => 10 * value + (c.toNat - 48)) 0

/-- The least size that rounds to no finite number of double precision. -/
def doubleLimit : Nat :=
  Nat.pow 2 1024 - Nat.pow 2 970

/-- The nearest number with 53 binary digits, and of two that are equally near the even one. -/
def toDoublePrecision (value : Nat) : Nat :=
  let step := Nat.pow 2 (value.log2 + 1 - 53)
  let steps := value / step
  let twice := 2 * (value % step)
  if twice < step || (twice == step && steps % 2 == 0) then steps * step else (steps + 1) * step

/-- Digits times a power of ten. -/
structure Decimal where
  digits : List Char
  exponent : Int
  deriving Repr

/-- Whether a number rounds to a finite number of double precision. Its magnitude is judged by the
place of its first digit first, so that no large power is computed for a number that is clearly out
of range. -/
def Decimal.isFinite (number : Decimal) : Bool :=
  let digits := number.digits.dropWhile (· == '0')
  let place : Int := digits.length + number.exponent
  if digits.isEmpty || place < 300 then true
  else if 320 < place then false
  else if number.exponent < 0 then
    decimalValue digits < doubleLimit * Nat.pow 10 (-number.exponent).toNat
  else decimalValue digits * Nat.pow 10 number.exponent.toNat < doubleLimit

end ApiBindings.Text
