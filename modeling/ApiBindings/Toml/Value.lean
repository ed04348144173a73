/-!
# Values of a TOML document

Nothing is computed with floats and moments in time, so only their form is looked at.
-/

namespace ApiBindings.Toml

/-- A value. Floats and moments in time are kept as they are written. -/
inductive Value where
  | string (text : String)
  | integer (value : Int)
  | float (written : String)
  | boolean (value : Bool)
  | moment (written : String)
  | array (items : List Value)
  | table (entries : List (String × Value))
  deriving Repr

end ApiBindings.Toml

namespace ApiBindings.Toml.Moment

/-! ## Dates and times -/

/-- The value of two digits. -/
def pair? (a b : Char) : Option Nat :=
  if a.isDigit && b.isDigit then some (10 * (a.toNat - 48) + (b.toNat - 48)) else none

/-- Whether two digits stand for a number within bounds. -/
def isPair (least most : Nat) (a b : Char) : Bool :=
  (pair? a b).any fun value => least ≤ value && value ≤ most

/-- Whether a year has a 29th of February. -/
def isLeap (year : Nat) : Bool :=
  (year % 4 == 0 && year % 100 != 0) || year % 400 == 0

/-- The number of days in a month. -/
def daysIn (year month : Nat) : Nat :=
  if month == 2 then (if isLeap year then 29 else 28)
  else if [4, 6, 9, 11].contains month then 30
  else 31

/-- Whether a text is a date: `2024-02-29`. -/
def isDate : List Char → Bool
  | [y₁, y₂, y₃, y₄, '-', m₁, m₂, '-', d₁, d₂] =>
      match pair? y₁ y₂, pair? y₃ y₄, pair? m₁ m₂ with
      | some century, some year, some month =>
          1 ≤ month && month ≤ 12 && isPair 1 (daysIn (100 * century + year) month) d₁ d₂
      | _, _, _ => false
  | _ => false

/-- Whether a text is an offset from universal time: `Z`, `+01:30`. -/
def isOffset : List Char → Bool
  | [c] => c == 'Z' || c == 'z'
  | [sign, h₁, h₂, ':', m₁, m₂] =>
      (sign == '+' || sign == '-') && isPair 0 23 h₁ h₂ && isPair 0 59 m₁ m₂
  | _ => false

/-- Whether a text is a time of day, with an offset that `endsWell` accepts: `07:32:00.5`. -/
def isTimeThen (endsWell : List Char → Bool) : List Char → Bool
  | h₁ :: h₂ :: ':' :: m₁ :: m₂ :: ':' :: s₁ :: s₂ :: rest =>
      let inRange := isPair 0 23 h₁ h₂ && isPair 0 59 m₁ m₂ && isPair 0 60 s₁ s₂
      inRange &&
        match rest with
        | '.' :: digit :: more => digit.isDigit && endsWell (more.dropWhile Char.isDigit)
        | _ => endsWell rest
  | _ => false

/-- Whether a text is a time of day. -/
def isTime (text : List Char) : Bool :=
  isTimeThen (·.isEmpty) text

/-- Whether a text is a date, a time, or both with or without an offset. -/
def isMoment (text : List Char) : Bool :=
  isDate text || isTime text ||
    (isDate (text.take 10) &&
      match text.drop 10 with
      | delimiter :: time =>
          (delimiter == 'T' || delimiter == 't' || delimiter == ' ') &&
            isTimeThen (fun rest => rest.isEmpty || isOffset rest) time
      | [] => false)

end ApiBindings.Toml.Moment
