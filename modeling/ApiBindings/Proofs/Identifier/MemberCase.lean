import ApiBindings.Identifier
import ApiBindings.Proofs.Identifier.FileCase

/-!
# Legal names

A name that generated code declares or uses has to be an identifier and no reserved word.  Member
case makes such a name of every name that it can convert: characters that no identifier has are
replaced, and an underscore in front turns away a digit at the start or the reserved word that would
have come out.
-/

namespace ApiBindings.Identifier

/-- An identifier that is no reserved word. -/
structure IsLegal (name : String) : Prop where
  valid : isValid name = true
  unreserved : isReserved name = false

instance (name : String) : Decidable (IsLegal name) :=
  decidable_of_iff (isValid name = true ∧ isReserved name = false)
    ⟨fun ⟨valid, unreserved⟩ => ⟨valid, unreserved⟩,
      fun legal => ⟨legal.valid, legal.unreserved⟩⟩

/-! ## Well-formed names -/

theorem isStart_of_isPart {c : Char} (part : isPart c = true) (letter : c.isDigit = false) :
    isStart c = true := by
  simp only [isPart, isStart, Char.isAlphanum, letter, Bool.or_false] at part ⊢
  exact part

/-- An underscore can be put in front of whatever an identifier goes on with. -/
theorem isWellFormed_underscore {name : List Char} (parts : ∀ c ∈ name, isPart c = true) :
    isWellFormed ('_' :: name) = true :=
  isWellFormed_cons_iff.mpr ⟨rfl, parts⟩

/-! ## The steps of member case -/

theorem isPart_legalize (c : Char) : isPart (legalize c) = true := by
  rw [legalize]
  split
  · assumption
  · rfl

theorem lowerHead_ne_nil {name : List Char} (nonempty : name ≠ []) : lowerHead name ≠ [] := by
  match name with
  | [_] => simp [lowerHead]
  | _ :: _ :: _ => simp [lowerHead]

theorem isWellFormed_guardDigit {name : List Char} (nonempty : name ≠ [])
    (parts : ∀ c ∈ name, isPart c = true) : isWellFormed (guardDigit name) = true := by
  cases name with
  | nil => exact absurd rfl nonempty
  | cons c rest =>
      rw [guardDigit]
      split
      · exact isWellFormed_underscore parts
      · rename_i letter
        rw [List.forall_mem_cons] at parts
        exact isWellFormed_cons_iff.mpr
          ⟨isStart_of_isPart parts.1 (Bool.eq_false_iff.mpr letter), parts.2⟩

theorem isWellFormed_guardReserved {name : List Char} (formed : isWellFormed name = true) :
    isWellFormed (guardReserved name) = true := by
  rw [guardReserved]
  split
  · exact isWellFormed_underscore (isPart_of_isWellFormed formed)
  · exact formed

/-- No reserved word starts with an underscore. -/
theorem isReserved_underscore (name : List Char) :
    isReserved (String.ofList ('_' :: name)) = false := by
  have starts : ∀ word ∈ reservedWords, word.toList.head? ≠ some '_' := by decide
  rw [isReserved, ← Bool.not_eq_true, List.contains_iff_mem]
  intro listed
  exact starts _ listed (by simp)

theorem isReserved_guardReserved (name : List Char) :
    isReserved (String.ofList (guardReserved name)) = false := by
  rw [guardReserved]
  split
  · exact isReserved_underscore name
  · rename_i unreserved
    exact Bool.eq_false_iff.mpr unreserved

/-- What has a member case has a legal one. -/
theorem isLegal_of_toMemberCase {name converted : String}
    (spelled : toMemberCase name = .ok converted) : IsLegal converted := by
  unfold toMemberCase at spelled
  split at spelled
  · cases spelled
  · rename_i c rest trimmed
    cases spelled
    have nonempty : (lowerHead (c :: rest)).map legalize ≠ [] := by
      simpa using lowerHead_ne_nil (List.cons_ne_nil c rest)
    have parts : ∀ d ∈ (lowerHead (c :: rest)).map legalize, isPart d = true := by
      intro d member
      obtain ⟨source, -, rfl⟩ := List.mem_map.mp member
      exact isPart_legalize source
    refine ⟨?_, isReserved_guardReserved _⟩
    rw [isValid, String.toList_ofList]
    exact isWellFormed_guardReserved (isWellFormed_guardDigit nonempty parts)

end ApiBindings.Identifier
