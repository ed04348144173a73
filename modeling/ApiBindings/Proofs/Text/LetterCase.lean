import ApiBindings.Text.LetterCase

/-!
# Small forms

How the tables of letter case fit together.  No small letter is a capital.  What a character becomes
in small form is in small form, and it is a capital only if the character is a capital without a
small form and so has not changed at all.

A set of code points is compared with another as a number that has a digit for each of them, so that
one operation on numbers tells whether two tables share a code point.
-/

namespace ApiBindings.Text

/-! ## Runs -/

namespace LetterCase

/-- The code points of a run as a number: the binary digits at their places are ones. -/
def Run.bits (run : Run) : Nat :=
  (List.range ((run.last - run.first) / run.stride + 1)).foldr
    (fun step bits => bits ||| 1 <<< (run.first + step * run.stride)) 0

/-- The code points of several runs as a number. -/
def bitsOf (runs : List Run) : Nat :=
  runs.foldr (fun run bits => run.bits ||| bits) 0

/-- Whether no code point is in a run of both lists. -/
def areApart (runs others : List Run) : Bool :=
  bitsOf runs &&& bitsOf others == 0

/-- The small forms of the characters that a shift applies to. -/
def Shift.target (shift : Shift) : Run :=
  ⟨(shift.first + shift.offset).toNat, (shift.last + shift.offset).toNat, shift.stride⟩

/-- Whether the code points that a shift leads to are those of characters. -/
def Shift.isSafe (shift : Shift) : Bool :=
  0 ≤ shift.first + shift.offset &&
    (shift.last + shift.offset < 0xD800 ||
      (0xDFFF < shift.first + shift.offset && shift.last + shift.offset < 0x110000))

/-- The characters that have a small form other than themselves. -/
def changedRuns : List Run :=
  ⟨0x130, 0x130, 1⟩ :: lowerShifts.map Shift.run

/-- The characters of these small forms. -/
def formedRuns : List Run :=
  ⟨0x307, 0x307, 1⟩ :: lowerShifts.map Shift.target

theorem Run.contains_iff {run : Run} {code : Nat} :
    run.contains code = true ↔
      run.first ≤ code ∧ code ≤ run.last ∧ (code - run.first) % run.stride = 0 := by
  simp only [Run.contains, Bool.and_eq_true, decide_eq_true_eq, beq_iff_eq, and_assoc]

/-- A code point of a run lies a number of strides behind the first one. -/
theorem Run.exists_step {run : Run} {code : Nat} (inside : run.contains code = true) :
    ∃ step < (run.last - run.first) / run.stride + 1, code = run.first + step * run.stride := by
  have bounds := Run.contains_iff.mp inside
  refine ⟨(code - run.first) / run.stride, ?_, ?_⟩
  · apply Nat.lt_succ_of_le
    apply Nat.div_le_div_right
    omega
  · have distance := Nat.div_add_mod (code - run.first) run.stride
    rw [bounds.2.2, Nat.add_zero, Nat.mul_comm] at distance
    omega

theorem testBit_foldr_of_mem (place : Nat → Nat) {steps : List Nat} {step : Nat}
    (member : step ∈ steps) :
    (steps.foldr (fun step bits => bits ||| 1 <<< place step) 0).testBit (place step) = true := by
  induction steps with
  | nil => cases member
  | cons first rest ih =>
      rw [List.foldr_cons, Nat.testBit_or]
      rcases List.mem_cons.mp member with rfl | later
      · rw [Nat.testBit_shiftLeft]
        simp
      · rw [ih later, Bool.true_or]

theorem Run.testBit_bits {run : Run} {code : Nat} (inside : run.contains code = true) :
    run.bits.testBit code = true := by
  rcases Run.exists_step inside with ⟨step, bound, rfl⟩
  exact testBit_foldr_of_mem (fun step => run.first + step * run.stride)
    (List.mem_range.mpr bound)

theorem testBit_bitsOf {runs : List Run} {code : Nat}
    (inside : runs.any (·.contains code) = true) : (bitsOf runs).testBit code = true := by
  induction runs with
  | nil => cases inside
  | cons run rest ih =>
      rw [List.any_cons, Bool.or_eq_true] at inside
      rw [bitsOf, List.foldr_cons, Nat.testBit_or, Bool.or_eq_true]
      exact inside.imp Run.testBit_bits ih

theorem any_contains_of_areApart (runs others : List Run) {code : Nat}
    (apart : areApart runs others = true) (inside : runs.any (·.contains code) = true) :
    others.any (·.contains code) = false := by
  rw [← Bool.not_eq_true]
  intro both
  have shared : (bitsOf runs &&& bitsOf others).testBit code = true := by
    rw [Nat.testBit_and, testBit_bitsOf inside, testBit_bitsOf both, Bool.and_self]
  rw [areApart, beq_iff_eq] at apart
  rw [apart, Nat.zero_testBit] at shared
  exact Bool.false_ne_true shared

theorem Shift.isSafe_of_mem {shift : Shift} (member : shift ∈ lowerShifts) :
    shift.isSafe = true := by
  have safe : lowerShifts.all Shift.isSafe = true := by decide +kernel
  exact List.all_eq_true.mp safe shift member

/-- A shift leads from one of its characters to one of its small forms. -/
theorem Shift.target_contains {shift : Shift} {code : Nat} (safe : shift.isSafe = true)
    (inside : shift.run.contains code = true) :
    shift.target.contains (Char.ofNat (Int.toNat (code + shift.offset))).toNat = true := by
  have bounds := Run.contains_iff.mp inside
  simp only [Shift.run] at bounds
  simp only [Shift.isSafe, Bool.and_eq_true, Bool.or_eq_true, decide_eq_true_eq] at safe
  have valid : (Int.toNat (code + shift.offset)).isValidChar := by
    simp only [Nat.isValidChar]
    omega
  have image : (Char.ofNat (Int.toNat (code + shift.offset))).toNat =
      Int.toNat (code + shift.offset) := by
    rw [Char.ofNat, dif_pos valid]
    rfl
  have distance : Int.toNat (code + shift.offset) - Int.toNat (shift.first + shift.offset) =
      code - shift.first := by
    omega
  rw [image]
  apply Run.contains_iff.mpr
  simp only [Shift.target]
  refine ⟨by omega, by omega, ?_⟩
  rw [distance]
  exact bounds.2.2

end LetterCase

/-! ## Characters -/

open LetterCase

theorem lowerOne_eq (c : Char) :
    lowerOne c = c ∨ changedRuns.any (·.contains c.toNat) = true ∧
      formedRuns.any (·.contains (lowerOne c).toNat) = true := by
  rw [lowerOne]
  split
  · rename_i shift found
    right
    have member := List.mem_of_find?_eq_some found
    have inside := List.find?_some found
    have image := Shift.target_contains (Shift.isSafe_of_mem member) inside
    constructor
    · apply List.any_eq_true.mpr
      exact ⟨shift.run, List.mem_cons_of_mem _ (List.mem_map_of_mem member), inside⟩
    · apply List.any_eq_true.mpr
      exact ⟨shift.target, List.mem_cons_of_mem _ (List.mem_map_of_mem member), image⟩
  · exact .inl rfl

/-- A character has itself for a small form, or it has one in which every character is formed. -/
theorem lower_eq (c : Char) :
    lower c = [c] ∨ changedRuns.any (·.contains c.toNat) = true ∧
      ∀ d ∈ lower c, formedRuns.any (·.contains d.toNat) = true := by
  rw [lower]
  split
  · rename_i dotted
    right
    subst dotted
    have formed : (['i', '\u0307'].all fun d => formedRuns.any (·.contains d.toNat)) = true := by
      decide +kernel
    constructor
    · decide +kernel
    · exact List.all_eq_true.mp formed
  · rcases lowerOne_eq c with same | ⟨changed, formed⟩
    · left
      rw [same]
    · right
      refine ⟨changed, ?_⟩
      intro d small
      rw [List.mem_singleton.mp small]
      exact formed

/-- Characters that are not formed by lowering others come from themselves only. -/
theorem eq_of_mem_lower (runs : List Run) (apart : areApart runs formedRuns = true) {c d : Char}
    (small : d ∈ lower c) (inside : runs.any (·.contains d.toNat) = true) : c = d := by
  rcases lower_eq c with same | ⟨-, formed⟩
  · rw [same, List.mem_singleton] at small
    exact small.symm
  · have outside := any_contains_of_areApart _ _ apart inside
    exact absurd (outside.symm.trans (formed d small)) Bool.false_ne_true

/-- Characters that are not changed by lowering are in small form. -/
theorem lower_eq_self (runs : List Run) (apart : areApart runs changedRuns = true) {c : Char}
    (inside : runs.any (·.contains c.toNat) = true) : lower c = [c] := by
  rcases lower_eq c with same | ⟨changed, -⟩
  · exact same
  · have outside := any_contains_of_areApart _ _ apart inside
    exact absurd (outside.symm.trans changed) Bool.false_ne_true

/-- The small form of a character is in small form. -/
theorem lower_of_mem_lower {c d : Char} (small : d ∈ lower c) : lower d = [d] := by
  rcases lower_eq c with same | ⟨-, formed⟩
  · have self : d = c := by
      rw [same] at small
      exact List.mem_singleton.mp small
    rw [self, same]
  · exact lower_eq_self formedRuns (by decide +kernel) (formed d small)

/-- A capital in a small form is the character itself, which has no small form then. -/
theorem eq_of_isUpper_of_mem_lower {c d : Char} (small : d ∈ lower c) (capital : isUpper d = true) :
    c = d :=
  eq_of_mem_lower uppercaseRuns (by decide +kernel) small capital

theorem isLower_of_isUpper {c : Char} (capital : isUpper c = true) : isLower c = false :=
  any_contains_of_areApart uppercaseRuns lowercaseRuns (by decide +kernel) capital

/-- The decimal digits. -/
def LetterCase.digitRuns : List Run := [⟨0x30, 0x39, 1⟩]

theorem any_contains_of_isDigit {c : Char} (digit : c.isDigit = true) :
    digitRuns.any (·.contains c.toNat) = true := by
  simp only [Char.isDigit, Bool.and_eq_true, decide_eq_true_eq, UInt32.le_iff_toNat_le] at digit
  simpa [digitRuns, Run.contains_iff, Nat.mod_one] using digit

theorem eq_of_isDigit_of_mem_lower {c d : Char} (small : d ∈ lower c) (digit : d.isDigit = true) :
    c = d :=
  eq_of_mem_lower digitRuns (by decide +kernel) small (any_contains_of_isDigit digit)

theorem lower_of_isDigit {c : Char} (digit : c.isDigit = true) : lower c = [c] :=
  lower_eq_self digitRuns (by decide +kernel) (any_contains_of_isDigit digit)

theorem lower_ne_nil (c : Char) : lower c ≠ [] := by
  rw [lower]
  split
  · exact List.cons_ne_nil _ _
  · exact List.cons_ne_nil _ _

end ApiBindings.Text
