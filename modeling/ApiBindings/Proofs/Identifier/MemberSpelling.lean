import ApiBindings.Proofs.Identifier.Repetition
import Mathlib.Data.List.TakeWhile

/-!
# What member case keeps of a name

The member case of a name can be recognised in the name.  Leading `@` signs are dropped and
characters that no identifier has are replaced; apart from that, no character is dropped or changed
but ASCII capitals at the start, which are lowered.  An underscore comes in front exactly where a
digit or a reserved word would have come out, never twice.
-/

namespace ApiBindings.Identifier

/-- A name without leading `@` signs and with an underscore for each character that no identifier
may contain. -/
def sanitized (name : String) : List Char :=
  (name.toList.dropWhile (· == '@')).map legalize

/-- A text with its first characters lowered, as far as they are ASCII letters. -/
def lowerFirst (count : Nat) (text : List Char) : List Char :=
  (text.take count).map Char.toLower ++ text.drop count

/-- Whether a text has to get an underscore in front to name a member. -/
def needsUnderscore (text : List Char) : Bool :=
  text.head?.any Char.isDigit || isReserved (String.ofList text)

/-- A member name made of the characters of a name. -/
structure IsMemberCaseOf (name converted : String) : Prop where
  legal : IsLegal converted
  spelled : ∃ count text, text = lowerFirst count (sanitized name) ∧
    converted.toList = if needsUnderscore text then '_' :: text else text

/-! ## Lowering the start -/

theorem lowerFirst_succ (count : Nat) (c : Char) (rest : List Char) :
    lowerFirst (count + 1) (c :: rest) = c.toLower :: lowerFirst count rest := rfl

theorem exists_lowerRun_eq (name : List Char) :
    ∃ count, lowerRun name = lowerFirst count name := by
  induction name with
  | nil => exact ⟨0, rfl⟩
  | cons c rest ih =>
      cases rest with
      | nil => exact ⟨1, rfl⟩
      | cons d others =>
          rw [lowerRun]
          split
          · rcases ih with ⟨count, lowered⟩
            exact ⟨count + 1, by rw [lowered, lowerFirst_succ]⟩
          · exact ⟨0, rfl⟩

theorem exists_lowerHead_eq (name : List Char) :
    ∃ count, lowerHead name = lowerFirst count name := by
  match name with
  | [] => exact ⟨0, rfl⟩
  | [c] => exact ⟨1, rfl⟩
  | c :: d :: rest =>
      rw [lowerHead]
      split
      · rcases exists_lowerRun_eq (d :: rest) with ⟨count, lowered⟩
        exact ⟨count + 1, by rw [lowered, lowerFirst_succ]⟩
      · exact ⟨1, rfl⟩

/-- Which characters are replaced does not depend on their case. -/
theorem legalize_toLower (c : Char) : legalize c.toLower = (legalize c).toLower := by
  by_cases ascii : c.toNat < 128
  · have checked := of_all_ascii (fun c => legalize c.toLower == (legalize c).toLower)
      (by decide +kernel) ascii
    exact beq_iff_eq.mp checked
  · have other : 128 ≤ c.toNat := Nat.le_of_not_lt ascii
    rw [toLower_of_not_ascii other, legalize_of_not_ascii other]
    decide

theorem map_legalize_lowerFirst (count : Nat) (text : List Char) :
    (lowerFirst count text).map legalize = lowerFirst count (text.map legalize) := by
  induction text generalizing count with
  | nil => simp [lowerFirst]
  | cons c rest ih =>
      cases count with
      | zero => rfl
      | succ count =>
          rw [lowerFirst_succ, List.map_cons, List.map_cons, lowerFirst_succ, ih, legalize_toLower]

/-! ## The underscore in front -/

/-- Of the two rules that put an underscore in front, at most one applies. -/
theorem guardReserved_guardDigit (text : List Char) :
    guardReserved (guardDigit text) = if needsUnderscore text then '_' :: text else text := by
  cases text with
  | nil => rfl
  | cons c rest =>
      rw [guardDigit, needsUnderscore, List.head?_cons, Option.any_some]
      cases digit : c.isDigit with
      | true =>
          rw [if_pos rfl, Bool.true_or, if_pos rfl, guardReserved, isReserved_underscore,
            if_neg Bool.false_ne_true]
      | false => rw [if_neg Bool.false_ne_true, Bool.false_or, guardReserved]

/-! ## Member case -/

theorem exists_spelling_of_memberCase (name : List Char) :
    ∃ count text, text = lowerFirst count (name.map legalize) ∧
      memberCase name = if needsUnderscore text then '_' :: text else text := by
  rcases exists_lowerHead_eq name with ⟨count, lowered⟩
  refine ⟨count, _, rfl, ?_⟩
  rw [memberCase, lowered, map_legalize_lowerFirst, guardReserved_guardDigit]

/-- A name of `@` signs only has no member case. Every other name has one, which is legal and is
spelled like the name. -/
theorem toMemberCase_legal_and_recognisable (name : String) :
    (∀ c ∈ name.toList, c = '@') ∧ toMemberCase name = .error .empty ∨
      (∃ c ∈ name.toList, c ≠ '@') ∧
        ∃ converted, toMemberCase name = .ok converted ∧ IsMemberCaseOf name converted := by
  cases trimmed : name.toList.dropWhile (· == '@') with
  | nil =>
      left
      constructor
      · simpa only [List.dropWhile_eq_nil_iff, beq_iff_eq] using trimmed
      · rw [toMemberCase, trimmed]
  | cons c rest =>
      right
      have spelled : toMemberCase name = .ok (String.ofList (memberCase (c :: rest))) := by
        rw [toMemberCase, trimmed]
      constructor
      · have member : c ∈ name.toList :=
          List.dropWhile_subset _ (trimmed ▸ List.mem_cons_self)
        refine ⟨c, member, ?_⟩
        have start := List.head?_dropWhile_not (· == '@') name.toList
        rw [trimmed] at start
        exact beq_eq_false_iff_ne.mp start
      · refine ⟨_, spelled, isLegal_of_toMemberCase spelled, ?_⟩
        rw [sanitized, trimmed, String.toList_ofList]
        exact exists_spelling_of_memberCase (c :: rest)

/-- Replaced characters are underscores already when a digit or a reserved word is looked for. -/
example : toMemberCase "@@1st Place" = .ok "_1st_Place" ∧ toMemberCase "NEW" = .ok "_new" ∧
    toMemberCase "ÉTAT" = .ok "_tat" := ⟨rfl, rfl, rfl⟩

end ApiBindings.Identifier
