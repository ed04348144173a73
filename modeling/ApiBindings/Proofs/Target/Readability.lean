import ApiBindings.Proofs.Identifier.FileCase
import ApiBindings.Target.TypeExpr
import Mathlib.Data.List.Induction

/-!
# Reading type texts

The text of a type can be read in one way only, as long as names are told from keywords and `null`
stands at the end of its unions.  It is read from the back, where the last character tells an array
from a type with arguments, and both from a word; what is in front of the type only has to end
where a word would not go on.
-/

namespace ApiBindings.Target

open Identifier (isPart isValid isWellFormed)

/-- The names that mean something else in the text of a type. -/
def takenNames : List String :=
  ["string", "number", "boolean", "null", "void", "Record"]

/-- A name that can be told from every other word in the text of a type. -/
structure IsOwnName (name : String) : Prop where
  valid : isValid name = true
  free : name ∉ takenNames

theorem IsOwnName.isPart {name : String} (own : IsOwnName name) :
    ∀ c ∈ name.toList, isPart c = true :=
  Identifier.isPart_of_isValid own.valid

theorem IsOwnName.ne_nil {name : String} (own : IsOwnName name) : name.toList ≠ [] := by
  intro empty
  have valid := own.valid
  simp [isValid, empty, isWellFormed] at valid

theorem isPart_of_mem_text {type : Primitive} : ∀ c ∈ type.text.toList, isPart c = true :=
  List.all_eq_true.mp (by cases type <;> decide)

theorem Primitive.text_inj {first second : Primitive} (same : first.text = second.text) :
    first = second := by
  revert same
  cases first <;> cases second <;> decide

theorem IsOwnName.ne_text {name : String} (own : IsOwnName name) (type : Primitive) :
    name ≠ type.text := by
  rintro rfl
  exact own.free (by cases type <;> decide)

theorem IsOwnName.ne_record {name : String} (own : IsOwnName name) : name ≠ "Record" := by
  rintro rfl
  exact own.free (by decide)

namespace TypeExpr

/-- The types whose texts can be read: names are their own, and a union is of some type and
`null`. -/
inductive Readable : TypeExpr → Prop where
  | primitive {type : Primitive} (notNull : type ≠ .null) : Readable (.primitive type)
  | reference {name : String} (own : IsOwnName name) : Readable (.reference name)
  | nullable {inner : TypeExpr} (readable : Readable inner) : Readable (.union [inner, null])
  | array {element : TypeExpr} (readable : Readable element) : Readable (.array element)
  | record {key value : TypeExpr} (readable : Readable key) (readableToo : Readable value) :
      Readable (.record key value)
  | generic {name : String} {arguments : List TypeExpr} (own : IsOwnName name)
      (nonempty : arguments ≠ []) (readable : ∀ argument ∈ arguments, Readable argument) :
      Readable (.generic name arguments)

/-! ## Texts -/

theorem charsOfAll_eq_map (types : List TypeExpr) : charsOfAll types = types.map chars := by
  induction types with
  | nil => rfl
  | cons type rest ih => rw [charsOfAll, ih, List.map_cons]

theorem chars_nullable (inner : TypeExpr) :
    (union [inner, null]).chars = inner.chars ++ [' ', '|', ' '] ++ "null".toList := by
  simp [chars, charsOfAll, separated, null, Primitive.text]

theorem chars_generic (name : String) (arguments : List TypeExpr) :
    (generic name arguments).chars =
      name.toList ++ ['<'] ++ separated [',', ' '] (arguments.map chars) ++ ['>'] := by
  simp [chars, charsOfAll_eq_map]

/-- A record is written like a generic type of that name. -/
theorem chars_record (key value : TypeExpr) :
    (record key value).chars = (generic "Record" [key, value]).chars := by
  simp [chars, charsOfAll, separated]

theorem separated_concat {texts : List (List Char)} (nonempty : texts ≠ [])
    (separator last : List Char) :
    separated separator (texts ++ [last]) = separated separator texts ++ separator ++ last := by
  induction texts with
  | nil => exact absurd rfl nonempty
  | cons text rest ih =>
      cases rest with
      | nil => simp [separated]
      | cons second others =>
          have step := ih (List.cons_ne_nil second others)
          simp only [List.cons_append, separated] at step ⊢
          simp [step]

/-! ## Words -/

/-- No word goes on from the end of a text. -/
def EndsApart (text : List Char) : Prop :=
  ∀ c, text.getLast? = some c → isPart c = false

theorem endsApart_concat {c : Char} (apart : isPart c = false) (text : List Char) :
    EndsApart (text ++ [c]) := by
  intro d last
  rw [List.getLast?_concat, Option.some.injEq] at last
  rw [← last, apart]

/-- The word at the end of a text. -/
theorem takeWhile_reverse_append {left word : List Char} (apart : EndsApart left)
    (spelled : ∀ c ∈ word, isPart c = true) :
    (left ++ word).reverse.takeWhile isPart = word.reverse := by
  rw [List.reverse_append, List.takeWhile_append_of_pos (by simpa using spelled)]
  cases reversed : left.reverse with
  | nil => simp
  | cons c rest =>
      have last : left.getLast? = some c := by
        rw [← List.head?_reverse, reversed, List.head?_cons]
      simp [apart c last]

theorem word_cancel {left left' word word' : List Char} (apart : EndsApart left)
    (apart' : EndsApart left') (spelled : ∀ c ∈ word, isPart c = true)
    (spelled' : ∀ c ∈ word', isPart c = true) (same : left ++ word = left' ++ word') :
    word = word' ∧ left = left' := by
  have words := takeWhile_reverse_append apart spelled
  rw [same, takeWhile_reverse_append apart' spelled', List.reverse_inj] at words
  subst words
  exact ⟨rfl, List.append_cancel_right same⟩

/-! ## Types -/

/-- A type can be taken off the end of a text in one way only. -/
def Cancels (type : TypeExpr) : Prop :=
  ∀ {other : TypeExpr} {left left' : List Char}, Readable other → EndsApart left →
    EndsApart left' → left ++ type.chars = left' ++ other.chars → type = other ∧ left = left'

/-- The character that closes a type, unless its text ends in a word. -/
def closing : TypeExpr → Option Char
  | .primitive _ => none
  | .reference _ => none
  | .union _ => none
  | .array _ => some ']'
  | .record _ _ => some '>'
  | .generic _ _ => some '>'

theorem filter_getLast?_word {word : List Char} (nonempty : word ≠ [])
    (spelled : ∀ c ∈ word, isPart c = true) (left : List Char) :
    (left ++ word).getLast?.filter (!isPart ·) = none := by
  rw [List.getLast?_append, List.getLast?_eq_some_getLast nonempty]
  simp [spelled _ (List.getLast_mem nonempty)]

theorem filter_getLast?_concat {c : Char} (apart : isPart c = false) (text : List Char) :
    (text ++ [c]).getLast?.filter (!isPart ·) = some c := by
  simp [apart]

/-- The last character of a text tells how the type at its end is closed. -/
theorem Readable.closing_eq {type : TypeExpr} (readable : Readable type) (left : List Char) :
    (left ++ type.chars).getLast?.filter (!isPart ·) = type.closing := by
  cases readable with
  | @primitive type notNull =>
      have nonempty : type.text.toList ≠ [] := by cases type <;> decide
      rw [chars, filter_getLast?_word nonempty isPart_of_mem_text, closing]
  | @reference name own => rw [chars, filter_getLast?_word own.ne_nil own.isPart, closing]
  | nullable =>
      have spelled : ∀ c ∈ "null".toList, isPart c = true := @isPart_of_mem_text .null
      rw [chars_nullable, ← List.append_assoc, filter_getLast?_word (by decide) spelled, closing]
  | @array element readable =>
      have bracket : ∃ before, left ++ element.array.chars = before ++ [']'] := by
        rw [chars]
        split
        · exact ⟨left ++ '(' :: element.chars ++ [')', '['], by simp⟩
        · exact ⟨left ++ element.chars ++ ['['], by simp⟩
      obtain ⟨before, spelled⟩ := bracket
      rw [spelled, filter_getLast?_concat (by decide), closing]
  | record =>
      rw [chars_record, chars_generic, ← List.append_assoc, filter_getLast?_concat (by decide),
        closing]
  | generic =>
      rw [chars_generic, ← List.append_assoc, filter_getLast?_concat (by decide), closing]

/-! ## Arguments -/

/-- The text of arguments between angle brackets, which comes after the name. -/
def opened (left : List Char) (arguments : List TypeExpr) : List Char :=
  left ++ ['<'] ++ separated [',', ' '] (arguments.map chars)

/-- The text in front of one more argument. -/
def before (left : List Char) : List TypeExpr → List Char
  | [] => left ++ ['<']
  | arguments => opened left arguments ++ [',', ' ']

theorem opened_concat (left : List Char) (arguments : List TypeExpr) (last : TypeExpr) :
    opened left (arguments ++ [last]) = before left arguments ++ last.chars := by
  cases arguments with
  | nil => simp [opened, before, separated]
  | cons argument rest =>
      rw [opened, List.map_append, List.map_singleton, separated_concat (by simp)]
      simp [before, opened]

theorem endsApart_before (left : List Char) (arguments : List TypeExpr) :
    EndsApart (before left arguments) := by
  cases arguments with
  | nil => exact endsApart_concat (by decide) left
  | cons argument rest =>
      have space : before left (argument :: rest) =
          opened left (argument :: rest) ++ [','] ++ [' '] := by
        simp [before]
      rw [space]
      exact endsApart_concat (by decide) _

/-- A bracket and a comma tell the first argument from the others. -/
theorem before_cancel {arguments others : List TypeExpr} {left left' : List Char}
    (same : before left arguments = before left' others) :
    arguments = [] ∧ others = [] ∧ left = left' ∨
      arguments ≠ [] ∧ others ≠ [] ∧ opened left arguments = opened left' others := by
  have last := congrArg List.getLast? same
  cases arguments <;> cases others <;> simp [before] at last same
  · exact .inl ⟨rfl, rfl, same⟩
  · exact .inr ⟨List.cons_ne_nil _ _, List.cons_ne_nil _ _, same⟩

/-- Arguments can be taken off one by one, the last one first. -/
theorem opened_cancel {arguments others : List TypeExpr} {left left' : List Char}
    (cancels : ∀ argument ∈ arguments, Cancels argument)
    (readable : ∀ argument ∈ others, Readable argument) (nonempty : arguments ≠ [])
    (nonemptyToo : others ≠ []) (same : opened left arguments = opened left' others) :
    arguments = others ∧ left = left' := by
  induction arguments using List.reverseRecOn generalizing others with
  | nil => exact absurd rfl nonempty
  | append_singleton init last ih =>
      obtain ⟨otherInit, otherLast, rfl⟩ : ∃ init last, others = init ++ [last] :=
        ⟨_, _, (List.dropLast_concat_getLast nonemptyToo).symm⟩
      rw [opened_concat, opened_concat] at same
      obtain ⟨rfl, front⟩ := cancels last (by simp) (readable otherLast (by simp))
        (endsApart_before left init) (endsApart_before left' otherInit) same
      rcases before_cancel front with ⟨rfl, rfl, apart⟩ | ⟨more, moreToo, rest⟩
      · exact ⟨rfl, apart⟩
      · obtain ⟨rfl, apart⟩ := ih (fun argument member => cancels argument (by simp [member]))
          (fun argument member => readable argument (by simp [member])) more moreToo rest
        exact ⟨rfl, apart⟩

/-- A name with arguments can be taken off the end of a text. -/
theorem generic_cancel {name name' : String} {arguments others : List TypeExpr}
    {left left' : List Char} (spelled : ∀ c ∈ name.toList, isPart c = true)
    (spelled' : ∀ c ∈ name'.toList, isPart c = true)
    (cancels : ∀ argument ∈ arguments, Cancels argument)
    (readable : ∀ argument ∈ others, Readable argument) (nonempty : arguments ≠ [])
    (nonemptyToo : others ≠ []) (apart : EndsApart left) (apart' : EndsApart left')
    (same : left ++ (generic name arguments).chars = left' ++ (generic name' others).chars) :
    name = name' ∧ arguments = others ∧ left = left' := by
  have inside : opened (left ++ name.toList) arguments = opened (left' ++ name'.toList) others := by
    simp only [chars_generic, ← List.append_assoc] at same
    exact List.append_cancel_right same
  obtain ⟨rfl, names⟩ := opened_cancel cancels readable nonempty nonemptyToo inside
  obtain ⟨word, front⟩ := word_cancel apart apart' spelled spelled' names
  exact ⟨String.toList_inj.mp word, rfl, front⟩

/-! ## Types that end in a word -/

/-- The word that a type ends in. -/
def word : TypeExpr → String
  | .primitive type => type.text
  | .reference name => name
  | .union _ => "null"
  | _ => ""

/-- What is in front of the word that a type ends in. -/
def wordless : TypeExpr → List Char
  | .union (inner :: _) => inner.chars ++ [' ', '|', ' ']
  | _ => []

theorem Readable.chars_eq_word {type : TypeExpr} (readable : Readable type)
    (open' : type.closing = none) :
    type.chars = type.wordless ++ type.word.toList ∧ (∀ c ∈ type.word.toList, isPart c = true) ∧
      ∀ left, EndsApart left → EndsApart (left ++ type.wordless) := by
  cases readable with
  | primitive => simpa [chars, wordless, word] using isPart_of_mem_text
  | reference own => simpa [chars, wordless, word] using own.isPart
  | @nullable inner =>
      refine ⟨by rw [chars_nullable, wordless, word], @isPart_of_mem_text .null, fun left _ => ?_⟩
      have space : left ++ (union [inner, null]).wordless =
          left ++ inner.chars ++ [' ', '|'] ++ [' '] := by
        simp [wordless]
      rw [space]
      exact endsApart_concat (by decide) _
  | array => simp [closing] at open'
  | record => simp [closing] at open'
  | generic => simp [closing] at open'

theorem Readable.wordless_cancel {type other : TypeExpr} {left left' : List Char}
    (readable : Readable type) (readableToo : Readable other) (open' : type.closing = none)
    (openToo : other.closing = none) (apart : EndsApart left) (apart' : EndsApart left')
    (same : left ++ type.chars = left' ++ other.chars) :
    type.word = other.word ∧ left ++ type.wordless = left' ++ other.wordless := by
  obtain ⟨text, spelled, ends⟩ := readable.chars_eq_word open'
  obtain ⟨textToo, spelledToo, endsToo⟩ := readableToo.chars_eq_word openToo
  rw [text, textToo, ← List.append_assoc, ← List.append_assoc] at same
  obtain ⟨words, rest⟩ :=
    word_cancel (ends left apart) (endsToo left' apart') spelled spelledToo same
  exact ⟨String.toList_inj.mp words, rest⟩

/-! ## Unique reading -/

theorem Readable.closing_congr {type other : TypeExpr} {left left' : List Char}
    (readable : Readable type) (readableToo : Readable other)
    (same : left ++ type.chars = left' ++ other.chars) : type.closing = other.closing := by
  rw [← readable.closing_eq left, ← readableToo.closing_eq left', same]

theorem cancels_primitive {type : Primitive} (notNull : type ≠ .null) :
    Cancels (.primitive type) := by
  intro other left left' readableToo apart apart' same
  have readable := Readable.primitive notNull
  have closed := readable.closing_congr readableToo same
  obtain ⟨words, rest⟩ :=
    readable.wordless_cancel readableToo rfl closed.symm apart apart' same
  cases readableToo with
  | primitive => simpa [wordless, Primitive.text_inj words] using rest
  | reference own => exact absurd words.symm (own.ne_text type)
  | nullable =>
      have null : type.text = Primitive.null.text := words
      exact absurd (Primitive.text_inj null) notNull
  | array => cases closed
  | record => cases closed
  | generic => cases closed

theorem cancels_reference {name : String} (own : IsOwnName name) : Cancels (.reference name) := by
  intro other left left' readableToo apart apart' same
  have readable := Readable.reference own
  have closed := readable.closing_congr readableToo same
  obtain ⟨words, rest⟩ :=
    readable.wordless_cancel readableToo rfl closed.symm apart apart' same
  cases readableToo with
  | @primitive type => exact absurd words (own.ne_text type)
  | reference =>
      exact ⟨congrArg TypeExpr.reference words, by simpa [wordless] using rest⟩
  | nullable => exact absurd words (own.ne_text .null)
  | array => cases closed
  | record => cases closed
  | generic => cases closed

theorem cancels_nullable {inner : TypeExpr} (readable : Readable inner) (cancels : Cancels inner) :
    Cancels (.union [inner, null]) := by
  intro other left left' readableToo apart apart' same
  have closed := (Readable.nullable readable).closing_congr readableToo same
  obtain ⟨words, rest⟩ :=
    (Readable.nullable readable).wordless_cancel readableToo rfl closed.symm apart apart' same
  cases readableToo with
  | @primitive type notNull =>
      have null : Primitive.null.text = type.text := words
      exact absurd (Primitive.text_inj null).symm notNull
  | reference own => exact absurd words.symm (own.ne_text .null)
  | nullable readableToo =>
      simp only [wordless, ← List.append_assoc] at rest
      obtain ⟨rfl, front⟩ := cancels readableToo apart apart' (List.append_cancel_right rest)
      exact ⟨rfl, front⟩
  | array => cases closed
  | record => cases closed
  | generic => cases closed

theorem chars_array_of_isUnion {element : TypeExpr} (union : element.isUnion = true) :
    element.array.chars = ['('] ++ element.chars ++ [')'] ++ ['[', ']'] := by
  simp [chars, union]

theorem chars_array_of_not_isUnion {element : TypeExpr} (plain : element.isUnion = false) :
    element.array.chars = element.chars ++ ['[', ']'] := by
  simp [chars, plain]

/-- A parenthesis closes no type. -/
theorem Readable.ne_concat {type : TypeExpr} (readable : Readable type) (left text : List Char) :
    left ++ type.chars ≠ text ++ [')'] := by
  intro spelled
  have closed := readable.closing_eq left
  rw [spelled, filter_getLast?_concat (by decide)] at closed
  cases type <;> simp [closing] at closed

/-- Of the elements of two arrays that read the same, both are in parentheses or neither. -/
theorem Readable.array_cancel {element other : TypeExpr} {left left' : List Char}
    (readable : Readable element) (readableToo : Readable other)
    (same : left ++ element.array.chars = left' ++ other.array.chars) :
    left ++ element.chars = left' ++ other.chars ∨
      left ++ ['('] ++ element.chars = left' ++ ['('] ++ other.chars := by
  cases union : element.isUnion <;> cases unionToo : other.isUnion
  · rw [chars_array_of_not_isUnion union, chars_array_of_not_isUnion unionToo,
      ← List.append_assoc, ← List.append_assoc] at same
    exact .inl (List.append_cancel_right same)
  · rw [chars_array_of_not_isUnion union, chars_array_of_isUnion unionToo] at same
    simp only [← List.append_assoc] at same
    exact absurd (List.append_cancel_right same) (readable.ne_concat _ _)
  · rw [chars_array_of_isUnion union, chars_array_of_not_isUnion unionToo] at same
    simp only [← List.append_assoc] at same
    exact absurd (List.append_cancel_right same).symm (readableToo.ne_concat _ _)
  · rw [chars_array_of_isUnion union, chars_array_of_isUnion unionToo] at same
    simp only [← List.append_assoc] at same
    exact .inr (List.append_cancel_right (List.append_cancel_right same))

theorem cancels_array {element : TypeExpr} (readable : Readable element)
    (cancels : Cancels element) : Cancels element.array := by
  intro other left left' readableToo apart apart' same
  have closed := (Readable.array readable).closing_congr readableToo same
  cases readableToo with
  | array readableToo =>
      rcases readable.array_cancel readableToo same with bare | wrapped
      · obtain ⟨rfl, front⟩ := cancels readableToo apart apart' bare
        exact ⟨rfl, front⟩
      · obtain ⟨rfl, front⟩ := cancels readableToo (endsApart_concat (by decide) _)
          (endsApart_concat (by decide) _) wrapped
        exact ⟨rfl, List.append_cancel_right front⟩
  | primitive => cases closed
  | reference => cases closed
  | nullable => cases closed
  | record => cases closed
  | generic => cases closed

theorem isPart_of_mem_record : ∀ c ∈ "Record".toList, isPart c = true :=
  List.all_eq_true.mp (by decide)

/-- What reads like a generic type is one, or a record with its two arguments. -/
theorem Readable.eq_of_generic {name : String} {arguments : List TypeExpr} {other : TypeExpr}
    {left left' : List Char} (spelled : ∀ c ∈ name.toList, isPart c = true)
    (cancels : ∀ argument ∈ arguments, Cancels argument) (nonempty : arguments ≠ [])
    (readable : Readable other) (closed : other.closing = some '>') (apart : EndsApart left)
    (apart' : EndsApart left')
    (same : left ++ (TypeExpr.generic name arguments).chars = left' ++ other.chars) :
    left = left' ∧ (IsOwnName name ∧ other = .generic name arguments ∨
      ∃ key value, name = "Record" ∧ arguments = [key, value] ∧ other = .record key value) := by
  cases readable with
  | @record key value readable readableToo =>
      rw [chars_record] at same
      obtain ⟨names, pair, front⟩ := generic_cancel spelled isPart_of_mem_record cancels
        (by simp [readable, readableToo]) nonempty (List.cons_ne_nil key [value]) apart apart' same
      exact ⟨front, .inr ⟨key, value, names, pair, rfl⟩⟩
  | generic own nonemptyToo readableToo =>
      obtain ⟨rfl, rfl, front⟩ := generic_cancel spelled own.isPart cancels readableToo
        nonempty nonemptyToo apart apart' same
      exact ⟨front, .inl ⟨own, rfl⟩⟩
  | primitive => cases closed
  | reference => cases closed
  | nullable => cases closed
  | array => cases closed

theorem cancels_record {key value : TypeExpr} (readable : Readable key)
    (readableToo : Readable value) (cancels : Cancels key) (cancelsToo : Cancels value) :
    Cancels (.record key value) := by
  intro other left left' readableOther apart apart' same
  have closed := (Readable.record readable readableToo).closing_congr readableOther same
  have both : ∀ argument ∈ [key, value], Cancels argument := by simp [cancels, cancelsToo]
  rw [chars_record] at same
  obtain ⟨front, ⟨own, -⟩ | ⟨key', value', -, pair, rfl⟩⟩ :=
    readableOther.eq_of_generic isPart_of_mem_record both (List.cons_ne_nil key [value])
      closed.symm apart apart' same
  · exact absurd rfl own.ne_record
  · cases pair
    exact ⟨rfl, front⟩

theorem cancels_generic {name : String} {arguments : List TypeExpr} (own : IsOwnName name)
    (nonempty : arguments ≠ []) (readable : ∀ argument ∈ arguments, Readable argument)
    (cancels : ∀ argument ∈ arguments, Cancels argument) : Cancels (.generic name arguments) := by
  intro other left left' readableOther apart apart' same
  have closed := (Readable.generic own nonempty readable).closing_congr readableOther same
  obtain ⟨front, ⟨-, rfl⟩ | ⟨-, -, record, -⟩⟩ :=
    readableOther.eq_of_generic own.isPart cancels nonempty closed.symm apart apart' same
  · exact ⟨rfl, front⟩
  · exact absurd record own.ne_record

/-- The end of a text can be read as a type in one way only. -/
theorem Readable.cancels {type : TypeExpr} (readable : Readable type) : Cancels type := by
  induction readable with
  | primitive notNull => exact cancels_primitive notNull
  | reference own => exact cancels_reference own
  | nullable readable ih => exact cancels_nullable readable ih
  | array readable ih => exact cancels_array readable ih
  | record readable readableToo ih ihToo => exact cancels_record readable readableToo ih ihToo
  | generic own nonempty readable ih => exact cancels_generic own nonempty readable ih

/-- Readable types with one text are one type. -/
theorem Readable.eq_of_text_eq {type other : TypeExpr} (readable : Readable type)
    (readableToo : Readable other) (same : type.text = other.text) : type = other := by
  have apart : EndsApart [] := by simp [EndsApart]
  have chars : [] ++ type.chars = [] ++ other.chars := String.ofList_inj.mp same
  exact (readable.cancels readableToo apart apart chars).1

end TypeExpr

end ApiBindings.Target
