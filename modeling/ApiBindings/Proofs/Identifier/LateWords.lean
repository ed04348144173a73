import ApiBindings.Proofs.Identifier.KebabCase
import ApiBindings.Proofs.Identifier.Repetition

/-!
# Words that begin late

File case looks for words among the characters of a name and writes their small forms.  When what it
wrote is converted again, it looks among small forms.  All of them are small letters or no letters
at all, except for the capitals that have no small form.  Such a capital begins a word late if its
neighbours did not show it the first time: the character in front of it, or the one behind an
acronym that it ends, was no small letter and has become one.

So a file name is a fixed point of file case exactly if no word of the name begins late.  Nothing
begins later than that: a name that is converted twice stays as it is.
-/

namespace ApiBindings.Identifier

open ApiBindings.Text

/-- A capital without a small form, such as `ℂ`. -/
structure IsBare (c : Char) : Prop where
  capital : isUpper c = true
  kept : lower c = [c]

/-- A capital that begins a word only when its neighbours are in small form; seen with the character
in front of it and those behind it. -/
inductive LateAt : Char → Char → List Char → Prop where
  /-- The character in front becomes a small letter. Where it is a capital in front of a capital and
  a small letter, the word begins in the name, too. -/
  | behind {p c : Char} {rest : List Char} (bare : IsBare c) (other : isLower p = false)
      (small : (lower p).getLast?.any isLower = true)
      (unseen : (isUpper p && rest.head?.any isLower) = false) : LateAt p c rest
  /-- The character behind becomes a small letter and does not begin a word itself. -/
  | before {p c n : Char} {rest : List Char} (acronym : IsBare p) (bare : IsBare c)
      (other : isLower n = false) (small : (lower n).head?.any isLower = true)
      (unseen : (isUpper n && rest.head?.any isLower) = false) : LateAt p c (n :: rest)

/-- Names in which a word begins late. -/
inductive BeginsLate : List Char → Prop where
  | here {p c : Char} {rest : List Char} (late : LateAt p c rest) : BeginsLate (p :: c :: rest)
  | later {c : Char} {rest : List Char} (late : BeginsLate rest) : BeginsLate (c :: rest)

/-! ## Beginnings of words -/

/-- Whether a word begins somewhere in a text, seen with the character in front of it. -/
def hasBeginning (previous : Option Char) : List Char → Bool
  | [] => false
  | c :: rest => beginsWord previous c rest.head? || hasBeginning (some c) rest

theorem beginsWord_iff {previous next : Option Char} {c : Char} :
    beginsWord previous c next = true ↔ isUpper c = true ∧ ∃ p, previous = some p ∧
      (isLower p = true ∨ p.isDigit = true ∨ isUpper p = true ∧ next.any isLower = true) := by
  cases previous with
  | none => simp [beginsWord]
  | some p => simp [beginsWord, or_assoc]

theorem beginsWord_none (c : Char) (next : Option Char) : beginsWord none c next = false := by
  rw [beginsWord, Option.any_none, Bool.and_false]

theorem beginsWord_of_not_capital {previous next : Option Char} {c : Char}
    (noCapital : isUpper c = false) : beginsWord previous c next = false := by
  rw [beginsWord, noCapital, Bool.false_and]

/-- Separators are letters of no case and no digits. -/
theorem isUpper_of_isSeparator {c : Char} (separator : isSeparator c = true) :
    isUpper c = false ∧ isLower c = false ∧ c.isDigit = false := by
  have checked := of_all_separators (fun c => !isUpper c && !isLower c && !c.isDigit)
    (by decide +kernel) separator
  simpa [and_assoc] using checked

theorem lower_of_isSeparator {c : Char} (separator : isSeparator c = true) : lower c = [c] :=
  beq_iff_eq.mp (of_all_separators (fun c => lower c == [c]) (by decide +kernel) separator)

theorem beginsWord_behind_separator {p c : Char} {next : Option Char}
    (separator : isSeparator p = true) : beginsWord (some p) c next = false := by
  have classes := isUpper_of_isSeparator separator
  simp [beginsWord, classes]

theorem isSeparator_hyphen : isSeparator '-' = true := rfl

theorem isLower_hyphen : isLower '-' = false :=
  (isUpper_of_isSeparator isSeparator_hyphen).2.1

theorem beginsWord_hyphen (previous next : Option Char) : beginsWord previous '-' next = false :=
  beginsWord_of_not_capital (isUpper_of_isSeparator isSeparator_hyphen).1

/-- Of the next character it only counts whether it is a small letter. -/
theorem beginsWord_congr {previous next next' : Option Char} {c : Char}
    (same : next.any isLower = next'.any isLower) :
    beginsWord previous c next = beginsWord previous c next' := by
  simp only [beginsWord, same]

/-- A character behind a hyphen begins no more than the first one. -/
theorem hasBeginning_behind_hyphen (text : List Char) :
    hasBeginning (some '-') text = hasBeginning none text := by
  cases text with
  | nil => rfl
  | cons c rest =>
      rw [hasBeginning, hasBeginning, beginsWord_behind_separator isSeparator_hyphen,
        beginsWord_none]

theorem hasBeginning_hyphen_cons (previous : Option Char) (text : List Char) :
    hasBeginning previous ('-' :: text) = hasBeginning none text := by
  rw [hasBeginning, beginsWord_hyphen, Bool.false_or, hasBeginning_behind_hyphen]

/-! ## Tidying up -/

theorem any_head?_foldr_consTidy (text : List Char) :
    (text.foldr consTidy []).head?.any isLower = text.head?.any isLower := by
  cases text with
  | nil => rfl
  | cons c rest =>
      rw [List.foldr_cons]
      rcases consTidy_cases c (rest.foldr consTidy []) with
        ⟨rfl, empty | hyphen, dropped⟩ | ⟨-, kept⟩
      · rw [dropped, empty]
        simp [isLower_hyphen]
      · rw [dropped, hyphen, List.head?_cons]
      · rw [kept, List.head?_cons, List.head?_cons]

theorem hasBeginning_foldr_consTidy (previous : Option Char) (text : List Char) :
    hasBeginning previous (text.foldr consTidy []) = hasBeginning previous text := by
  induction text generalizing previous with
  | nil => rfl
  | cons c rest ih =>
      rw [List.foldr_cons]
      rcases consTidy_cases c (rest.foldr consTidy []) with
        ⟨rfl, empty | hyphen, dropped⟩ | ⟨-, kept⟩
      · rw [dropped, hasBeginning_hyphen_cons, ← ih none, empty]
        rfl
      · rw [dropped, hasBeginning_hyphen_cons, ← ih none]
        rcases List.head?_eq_some_iff.mp hyphen with ⟨others, tidied⟩
        rw [tidied, hasBeginning_hyphen_cons, hasBeginning_hyphen_cons]
      · rw [kept, hasBeginning, hasBeginning, ih (some c),
          beginsWord_congr (any_head?_foldr_consTidy rest)]

theorem hasBeginning_dropWhile_hyphens (text : List Char) :
    hasBeginning none (text.dropWhile (· == '-')) = hasBeginning none text := by
  induction text with
  | nil => rfl
  | cons c rest ih =>
      rw [List.dropWhile_cons]
      split
      · rename_i hyphen
        rw [ih, beq_iff_eq.mp hyphen, hasBeginning_hyphen_cons]
      · rfl

/-- Tidying up hyphens neither makes nor hides the beginning of a word. -/
theorem hasBeginning_tidyHyphens (text : List Char) :
    hasBeginning none (tidyHyphens text) = hasBeginning none text := by
  rw [tidyHyphens, hasBeginning_dropWhile_hyphens, hasBeginning_foldr_consTidy]

theorem foldr_consTidy_of_isTidy {text : List Char} (last : text.getLast? ≠ some '-')
    (single : text.IsChain fun c d => ¬(c = '-' ∧ d = '-')) : text.foldr consTidy [] = text := by
  induction text with
  | nil => rfl
  | cons c rest ih =>
      have tail : rest.foldr consTidy [] = rest := by
        cases rest with
        | nil => rfl
        | cons d others =>
            rw [List.getLast?_cons_cons] at last
            exact ih last single.tail
      rw [List.foldr_cons, tail]
      rcases consTidy_cases c rest with ⟨rfl, empty | hyphen, -⟩ | ⟨-, kept⟩
      · rw [empty] at last
        exact absurd rfl last
      · exact absurd ⟨rfl, rfl⟩ ((List.isChain_cons.mp single).1 '-' hyphen)
      · exact kept

theorem IsTidy.tidyHyphens_eq {text : List Char} (tidy : IsTidy text) :
    tidyHyphens text = text := by
  rw [tidyHyphens, foldr_consTidy_of_isTidy tidy.last tidy.single]
  cases text with
  | nil => rfl
  | cons c rest =>
      apply List.dropWhile_cons_of_neg
      intro hyphen
      exact tidy.first (congrArg some (beq_iff_eq.mp hyphen))

/-! ## Texts in small form -/

/-- Texts that hold small forms only, and no separator but the hyphen. -/
structure IsLowercase (text : List Char) : Prop where
  small : ∀ d ∈ text, lower d = [d]
  separators : ∀ d ∈ text, isSeparator d = true → d = '-'

theorem IsLowercase.tail {c : Char} {rest : List Char} (lowercase : IsLowercase (c :: rest)) :
    IsLowercase rest where
  small := fun d member => lowercase.small d (List.mem_cons_of_mem _ member)
  separators := fun d member => lowercase.separators d (List.mem_cons_of_mem _ member)

theorem isLowercase_fileCase (name : List Char) : IsLowercase (fileCase name) where
  small := by
    intro d member
    rcases mem_fileCase member with rfl | ⟨c, -, -, small⟩
    · decide +kernel
    · exact lower_of_mem_lower small
  separators := fun _ member separator => isSeparator_of_mem_fileCase member separator

/-- In a text of small forms, to mark a word is to put a hyphen in front of it. -/
theorem IsLowercase.markWords_cons {c : Char} {rest : List Char}
    (lowercase : IsLowercase (c :: rest)) (previous : Option Char) :
    markWords previous (c :: rest) =
      (if beginsWord previous c rest.head? then ['-', c] else [c]) ++ markWords (some c) rest := by
  rw [markWords]
  cases separator : isSeparator c with
  | true =>
      have hyphen := lowercase.separators c List.mem_cons_self separator
      rw [hyphen, beginsWord_hyphen]
      rfl
  | false =>
      rw [lowercase.small c List.mem_cons_self]
      rfl

theorem IsLowercase.markWords_eq {text : List Char} (lowercase : IsLowercase text)
    {previous : Option Char} (quiet : hasBeginning previous text = false) :
    markWords previous text = text := by
  induction text generalizing previous with
  | nil => rfl
  | cons c rest ih =>
      rw [hasBeginning, Bool.or_eq_false_iff] at quiet
      rw [lowercase.markWords_cons, quiet.1, ih lowercase.tail quiet.2]
      rfl

/-- A text in which a word begins is longer when it is marked. -/
theorem IsLowercase.length_add_le {text : List Char} (lowercase : IsLowercase text)
    (previous : Option Char) :
    text.length + (hasBeginning previous text).toNat ≤ (markWords previous text).length := by
  induction text generalizing previous with
  | nil => exact Nat.le_refl _
  | cons c rest ih =>
      have tail := ih lowercase.tail (some c)
      rw [lowercase.markWords_cons, hasBeginning, List.length_append, List.length_cons]
      cases beginsWord previous c rest.head? with
      | true =>
          rw [Bool.true_or, Bool.toNat_true, if_pos rfl, List.length_cons, List.length_singleton]
          omega
      | false =>
          rw [Bool.false_or, if_neg Bool.false_ne_true, List.length_singleton]
          omega

/-- A marked text has a hyphen in front where the text has one or where a word begins. -/
theorem IsLowercase.head?_markWords {c : Char} {rest : List Char}
    (lowercase : IsLowercase (c :: rest)) (previous : Option Char) :
    (markWords previous (c :: rest)).head? =
      some (if beginsWord previous c rest.head? then '-' else c) := by
  rw [lowercase.markWords_cons]
  split
  · rfl
  · rfl

theorem IsLowercase.getLast?_markWords {text : List Char} (lowercase : IsLowercase text)
    (previous : Option Char) : (markWords previous text).getLast? = text.getLast? := by
  induction text generalizing previous with
  | nil => rfl
  | cons c rest ih =>
      rw [lowercase.markWords_cons]
      cases rest with
      | nil =>
          rw [markWords, List.append_nil]
          split
          · rfl
          · rfl
      | cons d others =>
          have marked : markWords (some c) (d :: others) ≠ [] := by
            intro empty
            have start := lowercase.tail.head?_markWords (some c)
            rw [empty] at start
            cases start
          rw [List.getLast?_append_of_ne_nil _ marked, ih lowercase.tail, List.getLast?_cons_cons]

theorem IsLowercase.isChain_markWords {text : List Char} (lowercase : IsLowercase text)
    (single : text.IsChain fun c d => ¬(c = '-' ∧ d = '-')) (previous : Option Char) :
    (markWords previous text).IsChain fun c d => ¬(c = '-' ∧ d = '-') := by
  induction text generalizing previous with
  | nil => exact .nil
  | cons c rest ih =>
      -- a hyphen cannot follow on `c` if `c` is one: no word begins behind a hyphen
      have follows : (c :: markWords (some c) rest).IsChain fun c d => ¬(c = '-' ∧ d = '-') := by
        apply List.isChain_cons.mpr
        refine ⟨?_, ih lowercase.tail single.tail (some c)⟩
        cases rest with
        | nil =>
            intro d next
            cases next
        | cons d others =>
            rw [lowercase.tail.head?_markWords]
            intro mark next
            rw [Option.mem_some_iff] at next
            rintro ⟨rfl, rfl⟩
            rw [beginsWord_behind_separator isSeparator_hyphen, if_neg Bool.false_ne_true] at next
            exact (List.isChain_cons_cons.mp single).1 ⟨rfl, next⟩
      rw [lowercase.markWords_cons]
      split
      · rename_i begins
        apply List.isChain_cons_cons.mpr
        refine ⟨?_, follows⟩
        rintro ⟨-, rfl⟩
        rw [beginsWord_hyphen] at begins
        cases begins
      · exact follows

/-- The marks stand between two characters that are no hyphens. -/
theorem IsLowercase.isTidy_markWords {text : List Char} (lowercase : IsLowercase text)
    (tidy : IsTidy text) : IsTidy (markWords none text) where
  first := by
    cases text with
    | nil => exact tidy.first
    | cons c rest =>
        rw [lowercase.head?_markWords, beginsWord_none, if_neg Bool.false_ne_true]
        exact tidy.first
  last := by
    rw [lowercase.getLast?_markWords]
    exact tidy.last
  single := lowercase.isChain_markWords tidy.single none

/-- Tidy texts of small forms are kept exactly if no word begins in them. -/
theorem IsLowercase.fileCase_eq_iff {text : List Char} (lowercase : IsLowercase text)
    (tidy : IsTidy text) : fileCase text = text ↔ hasBeginning none text = false := by
  rw [fileCase, (lowercase.isTidy_markWords tidy).tidyHyphens_eq]
  constructor
  · intro kept
    rw [← Bool.not_eq_true]
    intro begins
    have longer := lowercase.length_add_le none
    rw [begins, kept, Bool.toNat_true] at longer
    exact Nat.not_succ_le_self _ longer
  · intro quiet
    exact lowercase.markWords_eq quiet

/-! ## Beginnings among small forms -/

/-- In the small form of a character a word begins only if the character is a capital that stays. -/
theorem hasBeginning_lower_append (previous : Option Char) (c : Char) (text : List Char) :
    hasBeginning previous (lower c ++ text) =
      (lower c == [c] && beginsWord previous c text.head? ||
        hasBeginning (lower c).getLast? text) := by
  have quiet : ∀ d ∈ lower c, d ≠ c → isUpper d = false := by
    intro d small other
    rw [← Bool.not_eq_true]
    intro capital
    exact other (eq_of_isUpper_of_mem_lower small capital).symm
  by_cases dotted : c = 'İ'
  · rw [dotted] at quiet ⊢
    have formed : lower 'İ' = ['i', '\u0307'] := rfl
    rw [formed] at quiet ⊢
    have changed : (['i', '\u0307'] == ['İ']) = false := rfl
    simp [hasBeginning, beginsWord_of_not_capital (quiet 'i' (by simp) (by decide)),
      beginsWord_of_not_capital (quiet '\u0307' (by simp) (by decide))]
  · have formed : lower c = [lowerOne c] := by rw [lower, if_neg dotted]
    rw [formed] at quiet ⊢
    rw [List.singleton_append, hasBeginning, List.getLast?_singleton]
    by_cases same : lowerOne c = c
    · rw [same, BEq.rfl, Bool.true_and]
    · have changed : ([lowerOne c] == [c]) = false := by simpa using same
      rw [changed, beginsWord_of_not_capital (quiet _ List.mem_cons_self same), Bool.false_and]

theorem beginsWord_behind_capital {p c : Char} (capital : isUpper p = true) (next : Option Char) :
    beginsWord (some p) c next = (isUpper c && next.any isLower) := by
  have noDigit : p.isDigit = false := by
    rw [← Bool.not_eq_true]
    intro digit
    rw [isUpper_of_isDigit digit] at capital
    cases capital
  simp [beginsWord, capital, noDigit, isLower_of_isUpper capital]

/-- What file case writes behind a capital starts with a small letter exactly if the next character
becomes one and begins no word. -/
theorem any_head?_markWords {c : Char} (capital : isUpper c = true) (rest : List Char) :
    (markWords (some c) rest).head?.any isLower = true ↔ ∃ n others, rest = n :: others ∧
      (lower n).head?.any isLower = true ∧ (isUpper n && others.head?.any isLower) = false := by
  cases rest with
  | nil => simp [markWords]
  | cons n others =>
      have onlyOne (condition : Char → List Char → Prop) :
          (∃ m later, n :: others = m :: later ∧ condition m later) ↔ condition n others := by
        constructor
        · rintro ⟨m, later, same, holds⟩
          cases same
          exact holds
        · intro holds
          exact ⟨n, others, rfl, holds⟩
      rw [onlyOne fun n others => (lower n).head?.any isLower = true ∧
        (isUpper n && others.head?.any isLower) = false, markWords]
      cases separator : isSeparator n with
      | true =>
          have classes := isUpper_of_isSeparator separator
          simp [isLower_hyphen, lower_of_isSeparator separator, classes]
      | false =>
          rw [beginsWord_behind_capital capital, if_neg Bool.false_ne_true]
          cases begins : isUpper n && others.head?.any isLower with
          | true => simp [isLower_hyphen]
          | false =>
              rw [if_neg Bool.false_ne_true, List.head?_append_of_ne_nil _ (lower_ne_nil n)]
              simp

theorem LateAt.isBare {p c : Char} {rest : List Char} (late : LateAt p c rest) : IsBare c := by
  cases late with
  | behind bare => exact bare
  | before acronym bare => exact bare

/-- Where a word begins late, none begins in the name. -/
theorem LateAt.beginsWord_eq_false {p c : Char} {rest : List Char} (late : LateAt p c rest) :
    beginsWord (some p) c rest.head? = false := by
  cases late with
  | behind bare other small unseen =>
      have noDigit : p.isDigit = false := by
        rw [← Bool.not_eq_true]
        intro digit
        rw [lower_of_isDigit digit, List.getLast?_singleton, Option.any_some, other] at small
        cases small
      simp [beginsWord, other, noDigit, unseen]
  | before acronym bare other small unseen =>
      rw [beginsWord_behind_capital acronym.capital, List.head?_cons, Option.any_some, other,
        Bool.and_false]

/-- Where a word begins late, it begins among the small forms of what stands around. -/
theorem LateAt.beginsWord_lower {p c : Char} {rest : List Char} (late : LateAt p c rest) :
    beginsWord (lower p).getLast? c (markWords (some c) rest).head? = true := by
  cases late with
  | behind bare other small unseen =>
      rw [Option.any_eq_true] at small
      rcases small with ⟨d, last, small⟩
      exact beginsWord_iff.mpr ⟨bare.capital, d, last, .inl small⟩
  | @before n others acronym bare other small unseen =>
      rw [acronym.kept, List.getLast?_singleton, beginsWord_behind_capital acronym.capital,
        bare.capital, Bool.true_and]
      exact (any_head?_markWords bare.capital _).mpr ⟨n, others, rfl, small, unseen⟩

/-- A word begins late at a character exactly if it does not begin there in the name, but begins
there among the small forms of what stands around. -/
theorem lateAt_iff {p c : Char} {rest : List Char} :
    LateAt p c rest ↔ lower c = [c] ∧ beginsWord (some p) c rest.head? = false ∧
      beginsWord (lower p).getLast? c (markWords (some c) rest).head? = true := by
  constructor
  · intro late
    exact ⟨late.isBare.kept, late.beginsWord_eq_false, late.beginsWord_lower⟩
  · rintro ⟨kept, unseen, begins⟩
    rcases beginsWord_iff.mp begins with ⟨capital, d, last, shows⟩
    have formed : d ∈ lower p := List.mem_of_getLast? last
    have bare : IsBare c := ⟨capital, kept⟩
    simp only [beginsWord, capital, Option.any_some, Bool.true_and, Bool.or_eq_false_iff]
      at unseen
    rcases shows with small | digit | ⟨acronym, next⟩
    · apply LateAt.behind bare unseen.1.1 _ unseen.2
      rw [last]
      exact small
    · rw [eq_of_isDigit_of_mem_lower formed digit, digit] at unseen
      cases unseen.1.2
    · -- the small form of `p` ends in a capital only if `p` is this capital
      have same := eq_of_isUpper_of_mem_lower formed acronym
      have first : IsBare p := by
        rw [same]
        exact ⟨acronym, lower_of_mem_lower formed⟩
      rcases (any_head?_markWords capital rest).mp next with ⟨n, others, rfl, small, quiet⟩
      refine LateAt.before first bare ?_ small quiet
      have other := unseen.2
      rw [first.capital, Bool.true_and] at other
      exact other

theorem beginsLate_append_cons_iff {previous : Option Char} {c : Char} {rest : List Char} :
    BeginsLate (previous.toList ++ c :: rest) ↔
      (∃ p, previous = some p ∧ LateAt p c rest) ∨ BeginsLate (c :: rest) := by
  cases previous with
  | none => simp
  | some p =>
      rw [Option.toList_some, List.singleton_append]
      constructor
      · intro late
        cases late with
        | here late => exact .inl ⟨p, rfl, late⟩
        | later late => exact .inr late
      · rintro (⟨q, same, late⟩ | late)
        · cases same
          exact .here late
        · exact .later late

theorem not_beginsLate_toList (previous : Option Char) : ¬ BeginsLate previous.toList := by
  cases previous with
  | none => nofun
  | some p =>
      intro late
      cases late with
      | later late => cases late

/-- Beginnings in a marked text are late ones of the name. What is written in front of the text has
to show as much of the beginning of a word as the small form of the character in front does. -/
theorem hasBeginning_markWords_iff {previous formed : Option Char} {name : List Char}
    (alike : ∀ c next, beginsWord formed c next =
      beginsWord (previous.bind fun p => (lower p).getLast?) c next) :
    hasBeginning formed (markWords previous name) = true ↔
      BeginsLate (previous.toList ++ name) := by
  induction name generalizing previous formed with
  | nil => simp [markWords, hasBeginning, not_beginsLate_toList]
  | cons c rest ih =>
      have next : hasBeginning (lower c).getLast? (markWords (some c) rest) = true ↔
          BeginsLate ((some c).toList ++ rest) := ih fun _ _ => rfl
      rw [beginsLate_append_cons_iff, markWords]
      cases separator : isSeparator c with
      | true =>
          have early : ¬ ∃ p, previous = some p ∧ LateAt p c rest := by
            rintro ⟨p, -, late⟩
            have capital := late.isBare.capital
            rw [(isUpper_of_isSeparator separator).1] at capital
            cases capital
          have behind : hasBeginning none (markWords (some c) rest) = true ↔
              BeginsLate ((some c).toList ++ rest) := by
            apply ih
            intro d later
            rw [Option.bind_some, lower_of_isSeparator separator, List.getLast?_singleton,
              beginsWord_behind_separator separator, beginsWord_none]
          rw [if_pos rfl, List.singleton_append, hasBeginning_hyphen_cons, or_iff_right early]
          exact behind
      | false =>
          rw [if_neg Bool.false_ne_true]
          cases begins : beginsWord previous c rest.head? with
          | true =>
              have early : ¬ ∃ p, previous = some p ∧ LateAt p c rest := by
                rintro ⟨p, rfl, late⟩
                rw [late.beginsWord_eq_false] at begins
                cases begins
              rw [if_pos rfl, List.cons_append, hasBeginning_hyphen_cons,
                hasBeginning_lower_append, beginsWord_none, Bool.and_false, Bool.false_or,
                or_iff_right early]
              exact next
          | false =>
              have here : (lower c == [c] && beginsWord formed c (markWords (some c) rest).head?) =
                  true ↔ ∃ p, previous = some p ∧ LateAt p c rest := by
                rw [alike, Bool.and_eq_true, beq_iff_eq]
                cases previous with
                | none => simp [beginsWord_none]
                | some p =>
                    rw [Option.bind_some]
                    simp [lateAt_iff, begins]
              rw [if_neg Bool.false_ne_true, hasBeginning_lower_append, Bool.or_eq_true, here]
              exact or_congr_right next

instance (name : List Char) : Decidable (BeginsLate name) :=
  decidable_of_iff (hasBeginning none (markWords none name) = true)
    (hasBeginning_markWords_iff fun _ _ => rfl)

/-! ## Converting a name again -/

theorem fileCase_fileCase_eq_iff (name : List Char) :
    fileCase (fileCase name) = fileCase name ↔ ¬ BeginsLate name := by
  have late : hasBeginning none (fileCase name) = true ↔ BeginsLate name := by
    rw [fileCase, hasBeginning_tidyHyphens]
    exact hasBeginning_markWords_iff fun _ _ => rfl
  rw [(isLowercase_fileCase name).fileCase_eq_iff (isTidy_fileCase name), ← late,
    Bool.not_eq_true]

/-- Where everything is in small form, nothing becomes a small letter. -/
theorem not_beginsLate_of_small {text : List Char} (small : ∀ c ∈ text, lower c = [c]) :
    ¬ BeginsLate text := by
  intro late
  induction late with
  | @here p c rest late =>
      cases late with
      | behind bare other formed unseen =>
          rw [small p (by simp), List.getLast?_singleton, Option.any_some, other] at formed
          cases formed
      | @before n others acronym bare other formed unseen =>
          rw [small n (by simp), List.head?_singleton, Option.any_some, other] at formed
          cases formed
  | later late ih => exact ih fun c member => small c (List.mem_cons_of_mem _ member)

/-- Where all capitals have small forms, no word begins late. -/
theorem not_beginsLate_of_not_isBare {name : List Char} (formed : ∀ c ∈ name, ¬ IsBare c) :
    ¬ BeginsLate name := by
  intro late
  induction late with
  | here late => exact formed _ (by simp) late.isBare
  | later late ih => exact ih fun c member => formed c (List.mem_cons_of_mem _ member)

/-- All capitals of an identifier have small forms. -/
theorem not_isBare_of_isPart {c : Char} (part : isPart c = true) : ¬ IsBare c := by
  have checked := of_all_ascii (fun c => !(c.isUpper && lower c == [c])) (by decide +kernel)
    (toNat_lt_of_isPart part)
  intro bare
  rw [← isUpper_of_isPart part, bare.capital, bare.kept, BEq.rfl] at checked
  cases checked

theorem toFileCase_eq_self_iff {name stem : String} (cased : toFileCase name = .ok stem) :
    toFileCase stem = .ok stem ↔ fileCase (fileCase name.toList) = fileCase name.toList := by
  have spelled := toList_of_toFileCase cased
  rw [toFileCase_eq_ok_iff, spelled]
  constructor
  · intro kept
    have same := congrArg String.toList kept.2
    rw [spelled, String.toList_ofList] at same
    exact same.symm
  · intro kept
    rw [kept]
    exact toFileCase_eq_ok_iff.mp cased

/-- Identifiers, the names that files are generated for, convert once and for all. -/
theorem toFileCase_of_isValid {name stem : String} (valid : isValid name = true)
    (cased : toFileCase name = .ok stem) : toFileCase stem = .ok stem := by
  apply (toFileCase_eq_self_iff cased).mpr
  apply (fileCase_fileCase_eq_iff name.toList).mpr
  apply not_beginsLate_of_not_isBare
  intro c member
  exact not_isBare_of_isPart (isPart_of_isValid valid c member)

/-- What has been converted can be converted again, and does not change any more after that. -/
theorem exists_toFileCase_again {name stem : String} (cased : toFileCase name = .ok stem) :
    ∃ again, toFileCase stem = .ok again ∧ toFileCase again = .ok again := by
  have spelled := toList_of_toFileCase cased
  have remains : fileCase stem.toList ≠ [] := by
    intro empty
    have separators := fileCase_eq_nil_iff.mp empty
    have hyphens : stem.toList.filter (· != '-') = [] := by
      apply List.filter_eq_nil_iff.mpr
      intro d member
      rw [spelled] at member separators
      rw [isSeparator_of_mem_fileCase member (separators d member)]
      exact Bool.false_ne_true
    rw [spelled] at hyphens
    exact (toFileCase_eq_ok_iff.mp cased).1 ((isTidy_fileCase name.toList).eq_nil hyphens)
  have again : toFileCase stem = .ok (String.ofList (fileCase stem.toList)) :=
    toFileCase_eq_ok_iff.mpr ⟨remains, rfl⟩
  refine ⟨_, again, ?_⟩
  apply (toFileCase_eq_self_iff again).mpr
  apply (fileCase_fileCase_eq_iff stem.toList).mpr
  rw [spelled]
  exact not_beginsLate_of_small (isLowercase_fileCase name.toList).small

/-- The file case of a name is in file case exactly if no word of the name begins late. In any case
it has a file case itself, which is in file case. -/
theorem toFileCase_toFileCase_iff {name stem : String} (cased : toFileCase name = .ok stem) :
    (toFileCase stem = .ok stem ↔ ¬ BeginsLate name.toList) ∧
      ∃ again, toFileCase stem = .ok again ∧ toFileCase again = .ok again := by
  refine ⟨?_, exists_toFileCase_again cased⟩
  rw [toFileCase_eq_self_iff cased]
  exact fileCase_fileCase_eq_iff name.toList

/-- Capitals without a small form at the beginning of words that the name shows at once. -/
theorem toFileCase_toFileCase_number_sets :
    toFileCase "setℂOrℝ" = .ok "set-ℂ-or-ℝ" ∧ toFileCase "set-ℂ-or-ℝ" = .ok "set-ℂ-or-ℝ" ∧
      ¬ BeginsLate "setℂOrℝ".toList := by
  have once : toFileCase "setℂOrℝ" = .ok "set-ℂ-or-ℝ" := by rfl
  have twice : toFileCase "set-ℂ-or-ℝ" = .ok "set-ℂ-or-ℝ" := by rfl
  exact ⟨once, twice, (toFileCase_toFileCase_iff once).1.mp twice⟩

/-- A capital without a small form behind one that has a small form begins a word late. -/
theorem not_toFileCase_toFileCase_bold :
    toFileCase "A𝐀" = .ok "a𝐀" ∧ toFileCase "a𝐀" = .ok "a-𝐀" ∧
      ¬ ∀ name stem, toFileCase name = .ok stem → toFileCase stem = .ok stem := by
  have once : toFileCase "A𝐀" = .ok "a𝐀" := by rfl
  have twice : toFileCase "a𝐀" = .ok "a-𝐀" := by rfl
  refine ⟨once, twice, ?_⟩
  intro stable
  have same := Except.ok.inj (twice.symm.trans (stable _ _ once))
  exact absurd same (by decide)

/-- The neighbour in front, the neighbour behind, and neither of them. -/
example : BeginsLate "ǅ𝐀".toList ∧ BeginsLate "𝐀𝐁C".toList ∧ ¬ BeginsLate "𝐀𝐁Cd".toList := by
  decide +kernel

end ApiBindings.Identifier
