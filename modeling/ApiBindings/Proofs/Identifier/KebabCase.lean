import ApiBindings.Proofs.Identifier.FileCase
import ApiBindings.Proofs.Text.LetterCase
import Mathlib.Data.List.Chain

/-!
# What file case keeps of a name

File case only lowers letters and moves separators.  It keeps the small forms of all characters that
are no separators, in their order, and writes nothing else than single hyphens between them.  So it
fails for names of separators only.
-/

namespace ApiBindings.Identifier

open ApiBindings.Text

/-- A text without a hyphen at either end and without two of them in a row. -/
structure IsTidy (text : List Char) : Prop where
  first : text.head? ≠ some '-'
  last : text.getLast? ≠ some '-'
  single : text.IsChain fun c d => ¬(c = '-' ∧ d = '-')

/-- A file name made of the characters of a name. -/
structure IsFileCaseOf (name stem : String) : Prop where
  nonempty : stem.toList ≠ []
  separators : ∀ d ∈ stem.toList, isSeparator d = true → d = '-'
  tidy : IsTidy stem.toList
  letters : stem.toList.filter (· != '-') = (name.toList.filter (!isSeparator ·)).flatMap lower
  plain : isValid name = true → ∀ d ∈ stem.toList, isFilePart d = true

/-! ## Marking the words -/

/-- What holds of the four separators, checked one by one, holds of every separator. -/
theorem of_all_separators (check : Char → Bool) (each : ['_', ' ', '.', '-'].all check = true)
    {c : Char} (separator : isSeparator c = true) : check c = true := by
  apply List.all_eq_true.mp each
  simpa [isSeparator, or_assoc] using separator

/-- The separators as runs of code points. -/
def separatorRuns : List LetterCase.Run := [⟨0x5F, 0x5F, 1⟩, ⟨0x20, 0x20, 1⟩, ⟨0x2D, 0x2E, 1⟩]

/-- A separator is no small form of another character. -/
theorem eq_of_isSeparator_of_mem_lower {c d : Char} (small : d ∈ lower c)
    (separator : isSeparator d = true) : c = d := by
  have inside := of_all_separators (fun d => separatorRuns.any (·.contains d.toNat)) (by decide)
    separator
  exact eq_of_mem_lower separatorRuns (by decide +kernel) small inside

theorem isSeparator_of_mem_lower {c d : Char} (word : isSeparator c = false) (small : d ∈ lower c) :
    isSeparator d = false := by
  rw [← Bool.not_eq_true]
  intro separator
  rw [eq_of_isSeparator_of_mem_lower small separator, separator] at word
  cases word

theorem filter_lower {c : Char} (word : isSeparator c = false) :
    (lower c).filter (· != '-') = lower c := by
  apply List.filter_eq_self.mpr
  intro d small
  rw [bne_iff_ne]
  rintro rfl
  cases isSeparator_of_mem_lower word small

/-- Apart from its hyphens, a marked text has the small forms of what is no separator. -/
theorem filter_markWords (previous : Option Char) (name : List Char) :
    (markWords previous name).filter (· != '-') =
      (name.filter (!isSeparator ·)).flatMap lower := by
  induction name generalizing previous with
  | nil => rfl
  | cons c rest ih =>
      rw [markWords, List.filter_append, ih]
      cases separator : isSeparator c with
      | true => simp [separator]
      | false =>
          have own : ((if beginsWord previous c rest.head? then '-' :: lower c
              else lower c).filter (· != '-')) = lower c := by
            split
            · exact filter_lower separator
            · exact filter_lower separator
          simp [separator, own]

/-! ## Tidying up -/

/-- A hyphen at the end or in front of another one is dropped; everything else is kept. -/
theorem consTidy_cases (c : Char) (text : List Char) :
    (c = '-' ∧ (text = [] ∨ text.head? = some '-') ∧ consTidy c text = text) ∨
      ((c = '-' → text ≠ [] ∧ text.head? ≠ some '-') ∧ consTidy c text = c :: text) := by
  rw [consTidy]
  split
  · rename_i dropped
    simp only [Bool.and_eq_true, Bool.or_eq_true, beq_iff_eq, List.isEmpty_iff] at dropped
    exact .inl ⟨dropped.1, dropped.2, rfl⟩
  · rename_i kept
    simp only [Bool.and_eq_true, Bool.or_eq_true, beq_iff_eq, List.isEmpty_iff, not_and, not_or]
      at kept
    exact .inr ⟨kept, rfl⟩

theorem filter_consTidy (c : Char) (text : List Char) :
    (consTidy c text).filter (· != '-') = (c :: text).filter (· != '-') := by
  rcases consTidy_cases c text with ⟨rfl, -, dropped⟩ | ⟨-, kept⟩
  · rw [dropped]
    rfl
  · rw [kept]

theorem filter_foldr_consTidy (text : List Char) :
    (text.foldr consTidy []).filter (· != '-') = text.filter (· != '-') := by
  induction text with
  | nil => rfl
  | cons c rest ih =>
      rw [List.foldr_cons, filter_consTidy, List.filter_cons, List.filter_cons, ih]

theorem filter_dropWhile_hyphens (text : List Char) :
    (text.dropWhile (· == '-')).filter (· != '-') = text.filter (· != '-') := by
  induction text with
  | nil => rfl
  | cons c rest ih =>
      rw [List.dropWhile_cons]
      split
      · rename_i hyphen
        rw [ih, beq_iff_eq.mp hyphen]
        rfl
      · rfl

/-- Only hyphens are tidied away. -/
theorem filter_tidyHyphens (text : List Char) :
    (tidyHyphens text).filter (· != '-') = text.filter (· != '-') := by
  rw [tidyHyphens, filter_dropWhile_hyphens, filter_foldr_consTidy]

/-- What comes of putting characters in front of each other has no hyphen at its end. -/
theorem getLast?_foldr_consTidy (text : List Char) :
    (text.foldr consTidy []).getLast? ≠ some '-' := by
  induction text with
  | nil => simp
  | cons c rest ih =>
      rw [List.foldr_cons]
      rcases consTidy_cases c (rest.foldr consTidy []) with ⟨-, -, dropped⟩ | ⟨alone, kept⟩
      · rw [dropped]
        exact ih
      · rw [kept]
        cases tidied : rest.foldr consTidy [] with
        | nil =>
            intro hyphen
            rw [List.getLast?_singleton, Option.some.injEq] at hyphen
            exact (alone hyphen).1 tidied
        | cons d others =>
            rw [List.getLast?_cons_cons, ← tidied]
            exact ih

theorem isChain_foldr_consTidy (text : List Char) :
    (text.foldr consTidy []).IsChain fun c d => ¬(c = '-' ∧ d = '-') := by
  induction text with
  | nil => exact .nil
  | cons c rest ih =>
      rw [List.foldr_cons]
      rcases consTidy_cases c (rest.foldr consTidy []) with ⟨-, -, dropped⟩ | ⟨alone, kept⟩
      · rw [dropped]
        exact ih
      · rw [kept]
        apply List.isChain_cons.mpr
        refine ⟨?_, ih⟩
        intro d next hyphens
        rw [Option.mem_def, hyphens.2] at next
        exact (alone hyphens.1).2 next

theorem isTidy_tidyHyphens (text : List Char) : IsTidy (tidyHyphens text) where
  first := by
    intro hyphen
    have start := List.head?_dropWhile_not (· == '-') (text.foldr consTidy [])
    rw [← tidyHyphens, hyphen] at start
    cases start
  last := by
    intro hyphen
    have suffix : tidyHyphens text <:+ text.foldr consTidy [] := List.dropWhile_suffix _
    have nonempty : tidyHyphens text ≠ [] := by
      intro empty
      rw [empty] at hyphen
      cases hyphen
    rcases suffix with ⟨dropped, split⟩
    apply getLast?_foldr_consTidy text
    rw [← split, List.getLast?_append_of_ne_nil _ nonempty]
    exact hyphen
  single := (isChain_foldr_consTidy text).suffix (List.dropWhile_suffix _)

/-- A tidy text is more than hyphens unless it is empty. -/
theorem IsTidy.eq_nil {text : List Char} (tidy : IsTidy text)
    (hyphens : text.filter (· != '-') = []) : text = [] := by
  cases text with
  | nil => rfl
  | cons c rest =>
      have hyphen := List.filter_eq_nil_iff.mp hyphens c List.mem_cons_self
      apply absurd _ tidy.first
      simpa using hyphen

/-! ## File case -/

/-- The letters of a file name are those of the name. -/
theorem filter_fileCase (name : List Char) :
    (fileCase name).filter (· != '-') = (name.filter (!isSeparator ·)).flatMap lower := by
  rw [fileCase, filter_tidyHyphens, filter_markWords]

theorem isTidy_fileCase (name : List Char) : IsTidy (fileCase name) :=
  isTidy_tidyHyphens _

theorem fileCase_eq_nil_iff {name : List Char} :
    fileCase name = [] ↔ ∀ c ∈ name, isSeparator c = true := by
  constructor
  · intro empty c member
    have letters := filter_fileCase name
    rw [empty, List.filter_nil, eq_comm, List.flatMap_eq_nil_iff] at letters
    rw [← Bool.not_eq_false]
    intro word
    exact lower_ne_nil c (letters c (List.mem_filter.mpr ⟨member, by simp [word]⟩))
  · exact fileCase_of_all_separators

/-- The only separator in a file name is the hyphen. -/
theorem isSeparator_of_mem_fileCase {name : List Char} {d : Char} (member : d ∈ fileCase name)
    (separator : isSeparator d = true) : d = '-' := by
  rcases mem_fileCase member with hyphen | ⟨c, -, word, small⟩
  · exact hyphen
  · rw [isSeparator_of_mem_lower word small] at separator
    cases separator

theorem toList_of_toFileCase {name stem : String} (cased : toFileCase name = .ok stem) :
    stem.toList = fileCase name.toList := by
  rw [(toFileCase_eq_ok_iff.mp cased).2, String.toList_ofList]

theorem isFileCaseOf_of_toFileCase {name stem : String} (cased : toFileCase name = .ok stem) :
    IsFileCaseOf name stem := by
  have spelled := toList_of_toFileCase cased
  exact {
    nonempty := by
      rw [spelled]
      exact (toFileCase_eq_ok_iff.mp cased).1
    separators := by
      rw [spelled]
      intro d member separator
      exact isSeparator_of_mem_fileCase member separator
    tidy := by
      rw [spelled]
      exact isTidy_fileCase _
    letters := by
      rw [spelled]
      exact filter_fileCase _
    plain := fun valid => isFilePart_of_toFileCase valid cased }

theorem toFileCase_of_all_separators {name : String}
    (separators : ∀ c ∈ name.toList, isSeparator c = true) : toFileCase name = .error .empty := by
  rw [toFileCase, fileCase_eq_nil_iff.mpr separators]

/-- A name of separators only has no file case. Every other name has one, which is made of the small
forms of its characters and of single hyphens between them. -/
theorem toFileCase_lowers_and_separates (name : String) :
    (∀ c ∈ name.toList, isSeparator c = true) ∧ toFileCase name = .error .empty ∨
      (∃ c ∈ name.toList, isSeparator c = false) ∧
        ∃ stem, toFileCase name = .ok stem ∧ IsFileCaseOf name stem := by
  by_cases separators : ∀ c ∈ name.toList, isSeparator c = true
  · left
    exact ⟨separators, toFileCase_of_all_separators separators⟩
  · right
    have cased : toFileCase name = .ok (String.ofList (fileCase name.toList)) :=
      toFileCase_eq_ok_iff.mpr ⟨mt fileCase_eq_nil_iff.mp separators, rfl⟩
    refine ⟨?_, _, cased, isFileCaseOf_of_toFileCase cased⟩
    simpa using separators

/-- Runs of separators, a boundary behind a separator, and a character that lowers to two. -/
example : toFileCase "_İO.-Stream_" = .ok "i̇o-stream" := by rfl

end ApiBindings.Identifier
