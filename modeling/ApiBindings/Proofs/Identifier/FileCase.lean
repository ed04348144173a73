import ApiBindings.Identifier

/-!
# The characters of file names

File case only ever writes the small forms of a name's characters and hyphens.  For an identifier
this leaves small ASCII letters, digits, `$` and `-`, so that nothing in the name of a generated
file means something to a file system.
-/

namespace ApiBindings.Identifier

open ApiBindings.Text

/-! ## ASCII -/

/-- What holds of the first 128 characters, checked one by one, holds of every ASCII character. -/
theorem of_all_ascii (check : Char → Bool)
    (each : (List.range 128).all (fun code => check (Char.ofNat code)) = true) {c : Char}
    (ascii : c.toNat < 128) : check c = true := by
  have found := List.all_eq_true.mp each c.toNat (List.mem_range.mpr ascii)
  simpa using found

theorem toNat_lt_of_isPart {c : Char} (part : isPart c = true) : c.toNat < 128 := by
  simp only [isPart, Bool.or_eq_true, beq_iff_eq] at part
  rcases part with (letterOrDigit | rfl) | rfl
  · have ranges : (decide ('A'.val ≤ c.val ∧ c.val ≤ 'Z'.val) ||
        decide ('a'.val ≤ c.val) && decide (c.val ≤ 'z'.val) ||
        decide ('0'.val ≤ c.val) && decide (c.val ≤ '9'.val)) = true := letterOrDigit
    simp only [Bool.or_eq_true, Bool.and_eq_true, decide_eq_true_eq,
      UInt32.le_iff_toNat_le] at ranges
    have capital : 'Z'.val.toNat = 90 := rfl
    have small : 'z'.val.toNat = 122 := rfl
    have digit : '9'.val.toNat = 57 := rfl
    change c.val.toNat < 128
    omega
  · decide
  · decide

/-- The characters that a file name is made of before its suffixes. -/
def isFilePart (c : Char) : Bool :=
  c.isLower || c.isDigit || c == '$' || c == '-'

/-- The small form of a character that an identifier may contain. -/
theorem lower_of_isPart {c : Char} (part : isPart c = true) (word : isSeparator c = false) :
    ∀ d ∈ lower c, isFilePart d = true := by
  have checked := of_all_ascii
    (fun c => !isPart c || isSeparator c || (lower c).all isFilePart)
    (by decide +kernel) (toNat_lt_of_isPart part)
  simpa only [part, word, Bool.not_true, Bool.false_or, List.all_eq_true] using checked

/-! ## File case -/

theorem mem_markWords {previous : Option Char} {name : List Char} {d : Char}
    (member : d ∈ markWords previous name) :
    d = '-' ∨ ∃ c ∈ name, isSeparator c = false ∧ d ∈ lower c := by
  induction name generalizing previous with
  | nil => simp [markWords] at member
  | cons c rest ih =>
      rw [markWords, List.mem_append] at member
      rcases member with own | later
      · cases separator : isSeparator c with
        | true => simp only [separator, if_true, List.mem_singleton] at own; exact .inl own
        | false =>
            simp only [separator, Bool.false_eq_true, if_false] at own
            split at own
            · rcases List.mem_cons.mp own with hyphen | small
              · exact .inl hyphen
              · exact .inr ⟨c, by simp, separator, small⟩
            · exact .inr ⟨c, by simp, separator, own⟩
      · rcases ih later with hyphen | ⟨source, member, word, small⟩
        · exact .inl hyphen
        · exact .inr ⟨source, by simp [member], word, small⟩

theorem mem_foldr_consTidy {text : List Char} {d : Char} (member : d ∈ text.foldr consTidy []) :
    d ∈ text := by
  induction text with
  | nil => simp at member
  | cons c rest ih =>
      rw [List.foldr_cons, consTidy] at member
      split at member
      · exact List.mem_cons_of_mem _ (ih member)
      · rcases List.mem_cons.mp member with same | later
        · simp [same]
        · exact List.mem_cons_of_mem _ (ih later)

theorem mem_tidyHyphens {text : List Char} {d : Char} (member : d ∈ tidyHyphens text) : d ∈ text :=
  mem_foldr_consTidy (List.dropWhile_subset _ member)

/-- File case writes hyphens and small forms, and nothing else. -/
theorem mem_fileCase {name : List Char} {d : Char} (member : d ∈ fileCase name) :
    d = '-' ∨ ∃ c ∈ name, isSeparator c = false ∧ d ∈ lower c :=
  mem_markWords (mem_tidyHyphens member)

theorem isPart_of_isStart {c : Char} (start : isStart c = true) : isPart c = true := by
  simp only [isStart, isPart, Char.isAlphanum, Bool.or_eq_true] at start ⊢
  rcases start with (alpha | underscore) | dollar
  · exact .inl (.inl (.inl alpha))
  · exact .inl (.inr underscore)
  · exact .inr dollar

theorem isWellFormed_cons_iff {c : Char} {rest : List Char} :
    isWellFormed (c :: rest) = true ↔ isStart c = true ∧ ∀ d ∈ rest, isPart d = true := by
  rw [isWellFormed, Bool.and_eq_true, List.all_eq_true]

theorem isPart_of_isWellFormed {name : List Char} (formed : isWellFormed name = true) :
    ∀ c ∈ name, isPart c = true := by
  cases name with
  | nil => cases formed
  | cons c rest =>
      obtain ⟨start, parts⟩ := isWellFormed_cons_iff.mp formed
      exact List.forall_mem_cons.mpr ⟨isPart_of_isStart start, parts⟩

theorem isPart_of_isValid {name : String} (valid : isValid name = true) :
    ∀ c ∈ name.toList, isPart c = true :=
  isPart_of_isWellFormed valid

theorem toFileCase_eq_ok_iff {name stem : String} :
    toFileCase name = .ok stem ↔
      fileCase name.toList ≠ [] ∧ stem = String.ofList (fileCase name.toList) := by
  cases cased : fileCase name.toList with
  | nil => simp [toFileCase, cased]
  | cons c rest => simp [toFileCase, cased, eq_comm]

/-- The file case of an identifier is spelled with small letters, digits, `$` and `-`. -/
theorem isFilePart_of_toFileCase {name stem : String} (valid : isValid name = true)
    (cased : toFileCase name = .ok stem) : ∀ d ∈ stem.toList, isFilePart d = true := by
  obtain ⟨-, rfl⟩ := toFileCase_eq_ok_iff.mp cased
  intro d member
  rw [String.toList_ofList] at member
  rcases mem_fileCase member with rfl | ⟨c, source, word, small⟩
  · decide
  · exact lower_of_isPart (isPart_of_isValid valid c source) word d small

/-! ## What is left of a name -/

theorem mem_markWords_of_mem {previous : Option Char} {name : List Char} {c d : Char}
    (member : c ∈ name) (word : isSeparator c = false) (small : d ∈ lower c) :
    d ∈ markWords previous name := by
  induction name generalizing previous with
  | nil => cases member
  | cons first rest ih =>
      rw [markWords, List.mem_append]
      rcases List.mem_cons.mp member with rfl | later
      · left
        rw [word, if_neg Bool.false_ne_true]
        split
        · exact List.mem_cons_of_mem _ small
        · exact small
      · exact .inr (ih later)

theorem mem_foldr_consTidy_of_mem {text : List Char} {d : Char} (member : d ∈ text)
    (letter : d ≠ '-') : d ∈ text.foldr consTidy [] := by
  induction text with
  | nil => cases member
  | cons c rest ih =>
      rw [List.foldr_cons, consTidy]
      rcases List.mem_cons.mp member with rfl | later
      · simp [letter]
      · split
        · exact ih later
        · exact List.mem_cons_of_mem _ (ih later)

/-- Only hyphens are tidied away. -/
theorem mem_tidyHyphens_of_mem {text : List Char} {d : Char} (member : d ∈ text)
    (letter : d ≠ '-') : d ∈ tidyHyphens text := by
  have kept := mem_foldr_consTidy_of_mem member letter
  rw [← List.takeWhile_append_dropWhile (p := (· == '-')) (l := text.foldr consTidy [])] at kept
  rcases List.mem_append.mp kept with dropped | tidied
  · have hyphen := List.all_eq_true.mp List.all_takeWhile d dropped
    exact absurd (beq_iff_eq.mp hyphen) letter
  · exact tidied

theorem fileCase_of_all_separators {name : List Char}
    (separators : ∀ c ∈ name, isSeparator c = true) : fileCase name = [] := by
  have tidied (previous : Option Char) : (markWords previous name).foldr consTidy [] = [] := by
    induction name generalizing previous with
    | nil => rfl
    | cons c rest ih =>
        rw [List.forall_mem_cons] at separators
        rw [markWords, separators.1, if_pos rfl, List.singleton_append, List.foldr_cons,
          ih separators.2]
        rfl
  rw [fileCase, tidyHyphens, tidied]
  rfl

/-- An identifier has a file case unless there is nothing in it but underscores. -/
theorem exists_toFileCase_iff {name : String} (valid : isValid name = true) :
    (∃ stem, toFileCase name = .ok stem) ↔ ∃ c ∈ name.toList, c ≠ '_' := by
  simp only [toFileCase_eq_ok_iff, exists_and_left, exists_eq, and_true]
  constructor
  · intro left
    apply Decidable.byContradiction
    intro none
    apply left
    apply fileCase_of_all_separators
    intro c member
    have underscore : c = '_' := Decidable.byContradiction fun other => none ⟨c, member, other⟩
    rw [underscore]
    rfl
  · rintro ⟨c, member, other⟩ empty
    -- of what an identifier may contain, the underscore alone separates words
    have checked := of_all_ascii
      (fun c => !isPart c || c == '_' || (!isSeparator c && (lower c).any (· != '-')))
      (by decide +kernel) (toNat_lt_of_isPart (isPart_of_isValid valid c member))
    simp only [isPart_of_isValid valid c member, beq_eq_false_iff_ne.mpr other, Bool.not_true,
      Bool.false_or, Bool.and_eq_true, Bool.not_eq_eq_eq_not, List.any_eq_true] at checked
    obtain ⟨word, d, small, letter⟩ := checked
    have marked : d ∈ markWords none name.toList := mem_markWords_of_mem member word small
    have kept := mem_tidyHyphens_of_mem marked (bne_iff_ne.mp letter)
    rw [fileCase] at empty
    rw [empty] at kept
    cases kept

end ApiBindings.Identifier
