import ApiBindings.Json.Token

/-!
# Spelled texts are read back

A character is spelled in one of three ways: as itself, as a backslash and a letter, or as the four
digits of its number.  Each of them is taken back to the character, whatever follows it, and none of
them looks like the end of a string.  So a spelling is read as the text it was made from, and a
spelling between quotes ends at the closing quote.
-/

namespace ApiBindings

namespace Text

theorem hexValue?_hexDigit {value : Nat} (small : value < 16) :
    hexValue? (hexDigit value) = some value := by
  have all : ∀ value < 16, hexValue? (hexDigit value) = some value := by decide
  exact all value small

theorem isHexDigit_hexDigit {value : Nat} (small : value < 16) :
    isHexDigit (hexDigit value) = true := by
  rw [isHexDigit, hexValue?_hexDigit small, Option.isSome_some]

theorem hexQuadValue?_hexQuad {value : Nat} (small : value < 65536) :
    hexQuadValue? (hexDigit (value / 4096 % 16)) (hexDigit (value / 256 % 16))
      (hexDigit (value / 16 % 16)) (hexDigit (value % 16)) = some value := by
  have digit (part : Nat) : hexValue? (hexDigit (part % 16)) = some (part % 16) :=
    hexValue?_hexDigit (Nat.mod_lt part (by decide))
  simp only [hexQuadValue?, digit, Option.bind_eq_bind, Option.bind_some, Option.pure_def,
    Option.some.injEq]
  omega

end Text

namespace Json

open Text

/-! ## Characters -/

/-- How a character can be spelled. -/
inductive Spelled (c : Char) : List Char → Prop where
  | plain (noQuote : c ≠ '"') (noEscape : c ≠ '\\') (noControl : 0x20 ≤ c.toNat) : Spelled c [c]
  | escape {letter : Char} (short : shortEscape? letter = some c) (noUnit : letter ≠ 'u') :
      Spelled c ['\\', letter]
  | unit (control : c.toNat < 0x20) : Spelled c ('\\' :: 'u' :: hexQuad c.toNat)

theorem spelled_spellChar (c : Char) : Spelled c (spellChar c) := by
  fun_cases spellChar c
  case case8 control => exact .unit control
  case case9 noQuote noEscape _ _ _ _ _ noControl =>
    simp only [beq_iff_eq] at noQuote noEscape
    exact .plain noQuote noEscape (Nat.le_of_not_lt noControl)
  -- the seven characters that have a letter of their own
  all_goals
    rename_i same
    rw [eq_of_beq same]
    exact .escape rfl (by decide)

/-! ## Reading a spelling -/

theorem pieces?_cons {c : Char} {rest : List Char} (noEscape : c ≠ '\\') :
    pieces? (c :: rest) = (pieces? rest).map (.char c :: ·) := by
  rw [pieces?]
  · cases pieces? rest <;> rfl
  · intro _ _ _ _ _ same
    exact absurd same noEscape
  · intro _ _ same
    exact absurd same noEscape

theorem pieces?_escape {c letter : Char} {rest : List Char}
    (short : shortEscape? letter = some c) (noUnit : letter ≠ 'u') :
    pieces? ('\\' :: letter :: rest) = (pieces? rest).map (.char c :: ·) := by
  rw [pieces?]
  · rw [short]
    cases pieces? rest <;> rfl
  · intro _ _ _ _ _ same
    exact absurd same noUnit

theorem joinPieces?_unit {unit : Nat} {rest : List Piece} (small : unit < 0xD800) :
    joinPieces? (.unit unit :: rest) = (joinPieces? rest).map (Char.ofNat unit :: ·) := by
  have high : isHighSurrogate unit = false := by
    simp [isHighSurrogate]
    omega
  have low : isLowSurrogate unit = false := by
    simp [isLowSurrogate]
    omega
  cases rest with
  | nil => simp [joinPieces?, high, low]
  | cons piece rest => cases piece <;> simp [joinPieces?, high, low]

theorem unspell?_append {c : Char} {spelling rest : List Char} (spelled : Spelled c spelling) :
    unspell? (spelling ++ rest) = (unspell? rest).map (c :: ·) := by
  simp only [unspell?, Option.bind_eq_bind]
  cases spelled with
  | plain _ noEscape _ =>
      rw [List.singleton_append, pieces?_cons noEscape]
      cases pieces? rest <;> rfl
  | escape short noUnit =>
      rw [List.cons_append, List.singleton_append, pieces?_escape short noUnit]
      cases pieces? rest <;> rfl
  | unit control =>
      have value := hexQuadValue?_hexQuad (Nat.lt_trans control (by decide))
      simp only [hexQuad, List.cons_append, List.nil_append]
      rw [pieces?, value]
      cases pieces? rest with
      | none => rfl
      | some pieces =>
          have joined := @joinPieces?_unit c.toNat pieces (Nat.lt_trans control (by decide))
          rw [Char.ofNat_toNat] at joined
          exact joined

theorem unspell?_spell (text : List Char) : unspell? (spell text) = some text := by
  induction text with
  | nil => rfl
  | cons c rest ih =>
      rw [spell, List.flatMap_cons, unspell?_append (spelled_spellChar c)]
      rw [spell] at ih
      rw [ih, Option.map_some]

/-! ## Finding the end of a string -/

theorem splitString?_append {c : Char} {spelling rest : List Char} (spelled : Spelled c spelling) :
    Token.splitString? (spelling ++ rest) =
      (Token.splitString? rest).map fun (inside, after) => (spelling ++ inside, after) := by
  cases spelled with
  | plain noQuote noEscape noControl =>
      rw [List.singleton_append, Token.splitString?]
      · simp [noQuote, noEscape, Nat.not_lt.mpr noControl]
      · intro _ _ _ _ _ same
        exact absurd same noEscape
      · intro _ _ same
        exact absurd same noEscape
  | escape short noUnit =>
      rw [List.cons_append, List.singleton_append, Token.splitString?]
      · rw [short]
        rfl
      · intro _ _ _ _ _ same
        exact absurd same noUnit
  | unit control =>
      have digits (part : Nat) : isHexDigit (hexDigit (part % 16)) = true :=
        isHexDigit_hexDigit (Nat.mod_lt part (by decide))
      simp only [hexQuad, List.cons_append, List.nil_append]
      rw [Token.splitString?]
      simp only [digits, Bool.and_self, if_true]

/-- The spelling of a text goes on to the quote after it. -/
theorem splitString?_spell (text rest : List Char) :
    Token.splitString? (spell text ++ '"' :: rest) = some (spell text, rest) := by
  induction text with
  | nil => rfl
  | cons c text ih =>
      rw [spell] at ih
      rw [spell, List.flatMap_cons, List.append_assoc,
        splitString?_append (spelled_spellChar c), ih]
      rfl

end Json

end ApiBindings
