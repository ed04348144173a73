import ApiBindings.Json.Basic

/-!
# JSON tokens

A document is cut into marks, strings and words first.  A word is a longest row of letters, digits
and the signs that numbers use; it has to be `null`, `true`, `false` or a number.
-/

namespace ApiBindings.Json

open ApiBindings.Text

/-- The smallest parts of a document. -/
inductive Token where
  | openArray
  | closeArray
  | openObject
  | closeObject
  | comma
  | colon
  /-- A string, with its spelling. -/
  | text (spelling : List Char)
  /-- A value that is one word. -/
  | word (value : Json)
  deriving Repr

namespace Token

/-- The blanks that may stand between tokens. -/
def isGap (c : Char) : Bool :=
  c == ' ' || c == '\n' || c == '\r' || c == '\t'

/-- The characters that words are made of. -/
def isWordChar (c : Char) : Bool :=
  c.isAlphanum || c == '-' || c == '+' || c == '.'

/-- The token for a mark. -/
def ofMark? (c : Char) : Option Token :=
  if c == '[' then some .openArray
  else if c == ']' then some .closeArray
  else if c == '\x7b' then some .openObject
  else if c == '\x7d' then some .closeObject
  else if c == ',' then some .comma
  else if c == ':' then some .colon
  else none

/-- The token for a word. -/
def ofWord? (word : List Char) : Option Token :=
  if word == ['n', 'u', 'l', 'l'] then some (.word .null)
  else if word == ['t', 'r', 'u', 'e'] then some (.word (.bool true))
  else if word == ['f', 'a', 'l', 's', 'e'] then some (.word (.bool false))
  else (Numeral.parse? word).map fun _ => .word (.number word)

/-- The spelling of a string up to its closing quote, and what comes after the quote. Control
characters have to be escaped, and an escape is a short one or has four digits. -/
def splitString? : List Char → Option (List Char × List Char)
  | [] => none
  | '\\' :: 'u' :: a :: b :: c :: d :: rest =>
      if isHexDigit a && isHexDigit b && isHexDigit c && isHexDigit d then
        (splitString? rest).map fun (spelling, after) =>
          ('\\' :: 'u' :: a :: b :: c :: d :: spelling, after)
      else none
  | '\\' :: c :: rest =>
      if (shortEscape? c).isSome then
        (splitString? rest).map fun (spelling, after) => ('\\' :: c :: spelling, after)
      else none
  | c :: rest =>
      if c == '"' then some ([], rest)
      else if c.toNat < 0x20 || c == '\\' then none
      else (splitString? rest).map fun (spelling, after) => (c :: spelling, after)

theorem splitString?_length {text spelling after : List Char}
    (split : splitString? text = some (spelling, after)) : after.length < text.length := by
  fun_induction splitString? text generalizing spelling after with
  | case1 => simp at split
  | case2 a b c d rest _ ih =>
      obtain ⟨⟨s, t⟩, h, e⟩ := Option.map_eq_some_iff.1 split
      cases e
      have := ih h
      simp only [List.length_cons]
      omega
  | case3 => simp at split
  | case4 c rest _ _ ih =>
      obtain ⟨⟨s, t⟩, h, e⟩ := Option.map_eq_some_iff.1 split
      cases e
      have := ih h
      simp only [List.length_cons]
      omega
  | case5 => simp at split
  | case6 c rest =>
      cases split
      simp
  | case7 => simp at split
  | case8 c rest _ _ _ _ ih =>
      obtain ⟨⟨s, t⟩, h, e⟩ := Option.map_eq_some_iff.1 split
      cases e
      have := ih h
      simp only [List.length_cons]
      omega

/-- The tokens of a text, if it has nothing else but gaps. -/
def tokenize? (text : List Char) : Option (List Token) :=
  match text with
  | [] => some []
  | c :: rest =>
      if isGap c then tokenize? rest
      else if c == '"' then
        match _split : splitString? rest with
        | some (spelling, after) => (tokenize? after).map (.text spelling :: ·)
        | none => none
      else match ofMark? c with
        | some mark => (tokenize? rest).map (mark :: ·)
        | none =>
            if isWordChar c then do
              let word ← ofWord? (c :: rest.takeWhile isWordChar)
              return word :: (← tokenize? (rest.dropWhile isWordChar))
            else none
termination_by text.length
decreasing_by
  · simp
  · have := splitString?_length _split
    simp only [List.length_cons]
    omega
  · simp
  · have := (List.dropWhile_sublist isWordChar (l := rest)).length_le
    simp only [List.length_cons]
    omega

end Token

end ApiBindings.Json
