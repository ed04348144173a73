/-!
# Steps that may fail

How a sequence of steps comes to its result or to its fault: the inversion lemmas that take the
binding of a declaration and the walk along a path apart, step by step, and the steps over a list
that all succeed.
-/

namespace Except

variable {ε α β : Type}

@[simp] theorem pure_eq_ok_iff {value result : α} :
    (pure value : Except ε α) = .ok result ↔ value = result := by
  constructor
  · rintro ⟨⟩
    rfl
  · rintro rfl
    rfl

theorem bind_eq_ok_iff {first : Except ε α} {next : α → Except ε β} {result : β} :
    (first >>= next) = .ok result ↔ ∃ value, first = .ok value ∧ next value = .ok result := by
  cases first with
  | error error => simp [bind, Except.bind]
  | ok value => simp [bind, Except.bind]

theorem exists_bind_eq_ok_iff {first : Except ε α} {next : α → Except ε β} :
    (∃ result, (first >>= next) = .ok result) ↔
      ∃ value, first = .ok value ∧ ∃ result, next value = .ok result := by
  cases first with
  | error error => simp [bind, Except.bind]
  | ok value => simp [bind, Except.bind]

theorem bind_eq_error_iff {first : Except ε α} {next : α → Except ε β} {error : ε} :
    (first >>= next) = .error error ↔
      first = .error error ∨ ∃ value, first = .ok value ∧ next value = .error error := by
  cases first with
  | error fault => simp [bind, Except.bind]
  | ok value => simp [bind, Except.bind]

theorem isOk_iff {result : Except ε α} : result.isOk = true ↔ ∃ value, result = .ok value := by
  cases result <;> simp [Except.isOk, Except.toBool]

theorem map_eq_ok_iff {first : Except ε α} {image : α → β} {result : β} :
    first.map image = .ok result ↔ ∃ value, first = .ok value ∧ image value = result := by
  cases first with
  | error error => simp [Except.map]
  | ok value => simp [Except.map]

theorem map_eq_error_iff {first : Except ε α} {image : α → β} {error : ε} :
    first.map image = .error error ↔ first = .error error := by
  cases first with
  | error fault => simp [Except.map]
  | ok value => simp [Except.map]

/-- A loop over a list fails with a fault of one of its steps. -/
theorem exists_of_foldlM_eq_error {step : α → β → Except ε α} {items : List β} {start : α}
    {error : ε} (failed : items.foldlM step start = .error error) :
    ∃ state, ∃ item ∈ items, step state item = .error error := by
  induction items generalizing start with
  | nil => cases failed
  | cons item rest ih =>
      rw [List.foldlM_cons, bind_eq_error_iff] at failed
      rcases failed with now | ⟨next, -, later⟩
      · exact ⟨start, item, by simp, now⟩
      · obtain ⟨state, other, member, fault⟩ := ih later
        exact ⟨state, other, by simp [member], fault⟩

end Except

namespace Option

variable {α β : Type}

/-- A step that succeeds on each item of a list succeeds on the list. -/
theorem mapM_eq_some {step : α → Option β} {result : α → β} {items : List α}
    (each : ∀ item ∈ items, step item = some (result item)) :
    items.mapM step = some (items.map result) := by
  induction items with
  | nil => rfl
  | cons item rest ih =>
      have later := ih fun item member => each item (List.mem_cons_of_mem _ member)
      rw [List.mapM_cons, each item List.mem_cons_self, later]
      rfl

/-- Items that are each read back from what they are written as are read back as a list. -/
theorem mapM_map_eq_some {write : β → α} {read : α → Option β} {items : List β}
    (each : ∀ item ∈ items, read (write item) = some item) :
    (items.map write).mapM read = some items := by
  rw [List.mapM_map]
  exact (mapM_eq_some each).trans (congrArg some (List.map_id items))

end Option
