import ApiBindings.Proofs.Identifier.MemberCase

/-!
# Converting a name again

A name that member case has made is in member case: to convert it again changes nothing.  The run of
capitals at its start is lowered as far as it goes, a capital that was left there has no other one
behind it, and neither the characters that are replaced afterwards nor an underscore in front of the
name make a new run.
-/

namespace ApiBindings.Identifier

open ApiBindings.Text

/-- Names whose start leaves nothing to lower. The second character is no capital, or a capital that
starts a word. -/
inductive IsLowered : List Char → Prop where
  | letter {c : Char} (small : c.toLower = c) : IsLowered [c]
  | word {c d : Char} (small : c.toLower = c) (noCapital : isUpper d = false) (rest : List Char) :
      IsLowered (c :: d :: rest)
  | wordBehind {c e : Char} (small : c.toLower = c) (d : Char) (noCapital : isUpper e = false)
      (rest : List Char) : IsLowered (c :: d :: e :: rest)

/-! ## Characters -/

/-- The capitals below 128 are the ASCII ones: all other runs of capitals lie further up. -/
theorem isUpper_of_ascii {c : Char} (ascii : c.toNat < 128) : isUpper c = c.isUpper := by
  have further : (LetterCase.uppercaseRuns.drop 1).any (·.contains c.toNat) = false := by
    have starts : ∀ run ∈ LetterCase.uppercaseRuns.drop 1, 128 ≤ run.first := by decide +kernel
    rw [List.any_eq_false]
    intro run member
    have start := starts run member
    simp only [LetterCase.Run.contains, Bool.and_eq_true, decide_eq_true_eq]
    omega
  have runs : LetterCase.uppercaseRuns =
      ⟨0x41, 0x5A, 1⟩ :: LetterCase.uppercaseRuns.drop 1 := rfl
  have range : c.isUpper = decide ('A'.val ≤ c.val ∧ c.val ≤ 'Z'.val) := rfl
  have first : 'A'.val.toNat = 0x41 := rfl
  have last : 'Z'.val.toNat = 0x5A := rfl
  rw [isUpper, runs, List.any_cons, further, Bool.or_false, range, Bool.eq_iff_iff]
  simp only [LetterCase.Run.contains, Nat.mod_one, BEq.rfl, Bool.and_true, Bool.and_eq_true,
    decide_eq_true_eq, UInt32.le_iff_toNat_le, first, last, Char.toNat]

theorem isUpper_of_isPart {c : Char} (part : isPart c = true) : isUpper c = c.isUpper :=
  isUpper_of_ascii (toNat_lt_of_isPart part)

theorem toLower_of_not_ascii {c : Char} (other : 128 ≤ c.toNat) : c.toLower = c := by
  have noCapital : ¬ ('A'.val ≤ c.val ∧ c.val ≤ 'Z'.val) := by
    rintro ⟨-, capital⟩
    have last : c.toNat ≤ 'Z'.toNat := UInt32.le_iff_toNat_le.mp capital
    have code : 'Z'.toNat = 90 := rfl
    omega
  exact dif_neg noCapital

theorem legalize_of_not_ascii {c : Char} (other : 128 ≤ c.toNat) : legalize c = '_' := by
  rw [legalize, if_neg]
  intro part
  exact Nat.not_lt.mpr other (toNat_lt_of_isPart part)

theorem legalize_of_isPart {c : Char} (part : isPart c = true) : legalize c = c :=
  if_pos part

/-- What has been lowered and made legal is neither lowered again nor a capital, also where the
character has no small form. -/
theorem small_legalize_toLower (c : Char) :
    (legalize c.toLower).toLower = legalize c.toLower ∧ isUpper (legalize c.toLower) = false := by
  rw [isUpper_of_isPart (isPart_legalize c.toLower)]
  by_cases ascii : c.toNat < 128
  · have checked := of_all_ascii
      (fun c => (legalize c.toLower).toLower == legalize c.toLower &&
        !(legalize c.toLower).isUpper)
      (by decide +kernel) ascii
    simpa using checked
  · have other : 128 ≤ c.toNat := Nat.le_of_not_lt ascii
    rw [toLower_of_not_ascii other, legalize_of_not_ascii other]
    decide

/-- A character that is replaced does not become a capital. -/
theorem isUpper_legalize {c : Char} (noCapital : isUpper c = false) :
    isUpper (legalize c) = false := by
  rw [legalize]
  split
  · exact noCapital
  · exact isUpper_of_isPart rfl

theorem isUpper_of_isDigit {c : Char} (digit : c.isDigit = true) : isUpper c = false := by
  have part : isPart c = true := by simp [isPart, Char.isAlphanum, digit]
  have checked := of_all_ascii (fun c => !c.isDigit || !c.isUpper) (by decide +kernel)
    (toNat_lt_of_isPart part)
  rw [isUpper_of_isPart part]
  simpa [digit] using checked

/-! ## What the steps of member case make -/

theorem isLowered_lowerHead {name : List Char} (nonempty : name ≠ []) :
    IsLowered ((lowerHead name).map legalize) := by
  match name with
  | [c] => exact .letter (small_legalize_toLower c).1
  | c :: d :: rest =>
      have small := (small_legalize_toLower c).1
      cases capital : isUpper d with
      | false =>
          simp only [lowerHead, capital, Bool.false_eq_true, if_false, List.map_cons]
          exact .word small (isUpper_legalize capital) _
      | true =>
          simp only [lowerHead, capital, if_true, List.map_cons]
          cases rest with
          | nil => exact .word small (small_legalize_toLower d).2 []
          | cons e rest =>
              cases another : isUpper e with
              | true =>
                  simp only [lowerRun, another, if_true, List.map_cons]
                  exact .word small (small_legalize_toLower d).2 _
              | false =>
                  simp only [lowerRun, another, Bool.false_eq_true, if_false, List.map_cons]
                  exact .wordBehind small _ (isUpper_legalize another) _

theorem IsLowered.guardDigit {name : List Char} (lowered : IsLowered name) :
    IsLowered (guardDigit name) := by
  cases name with
  | nil => exact lowered
  | cons c rest =>
      rw [Identifier.guardDigit]
      split
      · rename_i digit
        exact .word rfl (isUpper_of_isDigit digit) rest
      · exact lowered

theorem IsLowered.guardReserved {name : List Char} (lowered : IsLowered name) :
    IsLowered (guardReserved name) := by
  rw [Identifier.guardReserved]
  split
  · rename_i reserved
    have starts : reservedWords.all (fun word =>
        word.toList.head?.all fun c => isPart c && !c.isUpper) = true := by decide +kernel
    cases name with
    | nil => exact .letter rfl
    | cons c rest =>
        have start := List.all_eq_true.mp starts _ (List.contains_iff_mem.mp reserved)
        have letter : isPart c = true ∧ c.isUpper = false := by simpa using start
        exact .word rfl ((isUpper_of_isPart letter.1).trans letter.2) rest
  · exact lowered

theorem isLowered_of_toMemberCase {name converted : String}
    (spelled : toMemberCase name = .ok converted) : IsLowered converted.toList := by
  unfold toMemberCase at spelled
  split at spelled
  · cases spelled
  · rename_i c rest trimmed
    cases spelled
    rw [String.toList_ofList]
    exact (isLowered_lowerHead (List.cons_ne_nil c rest)).guardDigit.guardReserved

/-! ## Names in member case -/

theorem IsLowered.lowerHead {name : List Char} (lowered : IsLowered name) :
    lowerHead name = name := by
  cases lowered with
  | letter small => simp only [Identifier.lowerHead, small]
  | word small noCapital rest =>
      simp only [Identifier.lowerHead, small, noCapital, Bool.false_eq_true, if_false]
  | wordBehind small d noCapital rest =>
      simp only [Identifier.lowerHead, lowerRun, small, noCapital, Bool.false_eq_true, if_false,
        ite_self]

/-- A legal name that leaves nothing to lower is in member case. -/
theorem IsLowered.toMemberCase_eq {name : String} (lowered : IsLowered name.toList)
    (legal : IsLegal name) : toMemberCase name = .ok name := by
  have formed : isWellFormed name.toList = true := legal.valid
  have parts := isPart_of_isWellFormed formed
  cases spelled : name.toList with
  | nil => simp [spelled, isWellFormed] at formed
  | cons c rest =>
      rw [spelled] at lowered formed parts
      obtain ⟨start, -⟩ := isWellFormed_cons_iff.mp formed
      have noMark : (c == '@') = false := by
        rw [beq_eq_false_iff_ne]
        rintro rfl
        cases start
      have noDigit : c.isDigit = false := by
        have checked := of_all_ascii (fun c => !isStart c || !c.isDigit) (by decide +kernel)
          (toNat_lt_of_isPart (parts c List.mem_cons_self))
        simpa [start] using checked
      have kept : (c :: rest).map legalize = c :: rest :=
        (List.map_congr_left fun d member => legalize_of_isPart (parts d member)).trans
          (List.map_id _)
      have unreserved : isReserved (String.ofList (c :: rest)) = false := by
        rw [← spelled, String.ofList_toList]
        exact legal.unreserved
      have converted : memberCase (c :: rest) = c :: rest := by
        rw [memberCase, lowered.lowerHead, kept, Identifier.guardDigit, noDigit,
          if_neg Bool.false_ne_true, Identifier.guardReserved, unreserved,
          if_neg Bool.false_ne_true]
      rw [toMemberCase, spelled, List.dropWhile_cons, noMark, if_neg Bool.false_ne_true]
      simp only [converted]
      rw [← spelled, String.ofList_toList]

/-- A name that was converted to member case is not changed by converting it again. -/
theorem toMemberCase_toMemberCase {name converted : String}
    (spelled : toMemberCase name = .ok converted) : toMemberCase converted = .ok converted :=
  (isLowered_of_toMemberCase spelled).toMemberCase_eq (isLegal_of_toMemberCase spelled)

/-- An acronym in front of a capital that is replaced. -/
theorem toMemberCase_toMemberCase_acronym :
    toMemberCase "@URLÉtat" = .ok "url_tat" ∧ toMemberCase "url_tat" = .ok "url_tat" := by
  have spelled : toMemberCase "@URLÉtat" = .ok "url_tat" := by rfl
  exact ⟨spelled, toMemberCase_toMemberCase spelled⟩

end ApiBindings.Identifier
