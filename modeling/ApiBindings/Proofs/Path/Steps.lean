import ApiBindings.Proofs.Path.Parent
import ApiBindings.Proofs.Path.Resolution

/-!
# Steps of paths

The steps of a path are the segments that lead on from where it starts.  Going to the parent takes
the last step back and leaves the start as it is; the text of the parent is the beginning of the
text, and it has no idle segments at its end.
-/

namespace ApiBindings.Path

/-- The segments that lead on from the start of a path. -/
def steps (path : Path) : List (List Char) :=
  (splitSlashes path.text.toList).filter (!isIdle ·)

theorem parts_eq_append_steps (path : Path) :
    path.parts = startOf (splitSlashes path.text.toList) ++ path.steps :=
  parts_eq_partsOf path

theorem isIdle_of_mem_steps {path : Path} {step : List Char} (member : step ∈ path.steps) :
    isIdle step = false := by
  simpa using (List.mem_filter.mp member).2

theorem noSlash_of_mem_steps {path : Path} {step : List Char} (member : step ∈ path.steps) :
    '/' ∉ step :=
  noSlash_of_mem_splitSlashes (List.mem_filter.mp member).1

/-! ## Steps and parts -/

/-- Whether a part of a path is one of its steps. The other parts say where a path starts. -/
def isStep (part : List Char) : Bool :=
  !isIdle part && part != ['/']

theorem filter_isStep_startOf (segments : List (List Char)) :
    (startOf segments).filter isStep = [] := by
  cases segments with
  | nil => rfl
  | cons first rest =>
      simp only [startOf]
      split
      · rfl
      · split <;> rfl

theorem filter_isStep_steps {path : Path} {steps : List (List Char)}
    (some : ∀ step ∈ steps, step ∈ path.steps) : steps.filter isStep = steps := by
  apply List.filter_eq_self.mpr
  intro step member
  have notRoot : step ≠ ['/'] := by
    intro root
    exact noSlash_of_mem_steps (some step member) (by simp [root])
  simp [isStep, isIdle_of_mem_steps (some step member), notRoot]

theorem steps_eq_filter (path : Path) : path.steps = path.parts.filter isStep := by
  rw [parts_eq_append_steps, List.filter_append, filter_isStep_startOf,
    filter_isStep_steps fun _ member => member, List.nil_append]

/-! ## Lengths -/

/-- A character adds one busy segment to a text at most. -/
theorem length_filter_splitSlashes_cons (c : Char) (rest : List Char) :
    ((splitSlashes (c :: rest)).filter (!isIdle ·)).length ≤
      ((splitSlashes rest).filter (!isIdle ·)).length + 1 := by
  by_cases slash : c = '/'
  · rw [slash, splitSlashes_slash]
    simp [isIdle]
  · obtain ⟨segment, segments, cut, joined⟩ := splitSlashes_cons slash rest
    rw [joined, cut, List.filter_cons, List.filter_cons]
    split <;> split <;> simp +arith

theorem length_filter_splitSlashes_le (text : List Char) :
    ((splitSlashes text).filter (!isIdle ·)).length ≤ text.length := by
  induction text with
  | nil => simp [splitSlashes, isIdle]
  | cons c rest ih =>
      have more := length_filter_splitSlashes_cons c rest
      rw [List.length_cons]
      omega

/-- A path has no more parts than its text has characters. -/
theorem length_parts_le (path : Path) : path.parts.length ≤ path.text.length := by
  rw [parts_eq_partsOf, partsOf, ← String.length_toList]
  cases spelled : path.text.toList with
  | nil => decide
  | cons c rest =>
      have steps := length_filter_splitSlashes_le rest
      have more := length_filter_splitSlashes_cons c rest
      by_cases slash : c = '/'
      · subst slash
        rw [splitSlashes_slash]
        have start : (startOf ([] :: splitSlashes rest)).length ≤ 1 := by
          simp only [startOf]
          repeat' split
          all_goals simp
        have idle : isIdle [] = true := rfl
        simp only [List.length_append, List.filter_cons, idle, Bool.not_true, Bool.false_eq_true,
          if_false, List.length_cons]
        omega
      · obtain ⟨segment, segments, cut, joined⟩ := splitSlashes_cons slash rest
        rw [joined] at more ⊢
        by_cases dot : c :: segment = ['.']
        · obtain ⟨rfl, rfl⟩ := List.cons.inj dot
          have idle : isIdle ['.'] = true := rfl
          have empty : isIdle [] = true := rfl
          rw [cut] at steps
          simp only [List.filter_cons, empty, Bool.not_true, Bool.false_eq_true, if_false] at steps
          simp only [startOf, List.isEmpty_cons, Bool.false_and, Bool.false_eq_true, if_false,
            BEq.rfl, if_true, List.length_append, List.filter_cons, idle, Bool.not_true,
            List.length_cons, List.length_nil]
          omega
        · simp only [startOf, List.isEmpty_cons, Bool.false_and, Bool.false_eq_true, if_false,
            beq_iff_eq, dot, List.nil_append, List.length_cons]
          omega

/-! ## Texts -/

theorem joinSlashes_splitSlashes (text : List Char) : joinSlashes (splitSlashes text) = text := by
  induction text with
  | nil => rfl
  | cons c rest ih =>
      by_cases slash : c = '/'
      · rw [slash, splitSlashes_slash, joinSlashes_cons (splitSlashes_ne_nil rest), ih]
        rfl
      · obtain ⟨segment, segments, cut, joined⟩ := splitSlashes_cons slash rest
        rw [joined, ← ih, cut]
        cases segments <;> rfl

theorem joinSlashes_isPrefix (first : List Char) {kept rest : List (List Char)}
    (beginning : kept <+: rest) : joinSlashes (first :: kept) <+: joinSlashes (first :: rest) := by
  induction kept generalizing first rest with
  | nil =>
      cases rest with
      | nil => exact List.prefix_rfl
      | cons second others => exact List.prefix_append _ _
  | cons second others ih =>
      obtain ⟨more, rfl⟩ := beginning
      have inner := ih second (List.prefix_append others more)
      rw [List.cons_append]
      rw [joinSlashes_cons (List.cons_ne_nil _ _), joinSlashes_cons (List.cons_ne_nil _ _)]
      exact (List.prefix_append_right_inj first).mpr ((List.prefix_cons_inj '/').mpr inner)

theorem dropLastPart_isPrefix {segments kept : List (List Char)}
    (found : dropLastPart segments = some kept) : kept <+: segments := by
  rw [dropLastPart] at found
  cases busy : segments.reverse.dropWhile isIdle with
  | nil => simp [busy] at found
  | cons last rest =>
      simp only [busy, Option.some.injEq] at found
      rw [← found, ← List.reverse_suffix, List.reverse_reverse]
      have suffix := List.dropWhile_suffix isIdle (l := segments.reverse)
      rw [busy] at suffix
      exact (List.dropWhile_suffix isIdle).trans ((List.suffix_cons last rest).trans suffix)

/-- What is kept of some segments does not end with an idle one. -/
theorem dropLastPart_ends {segments kept : List (List Char)}
    (found : dropLastPart segments = some kept) :
    kept = [] ∨ ∃ before last, kept = before ++ [last] ∧ isIdle last = false := by
  rw [dropLastPart] at found
  cases busy : segments.reverse.dropWhile isIdle with
  | nil => simp [busy] at found
  | cons dropped rest =>
      simp only [busy, Option.some.injEq] at found
      subst found
      have head := List.head?_dropWhile_not isIdle rest
      cases left : rest.dropWhile isIdle with
      | nil => exact .inl rfl
      | cons last before =>
          simp only [left, List.head?_cons] at head
          exact .inr ⟨before.reverse, last, by simp, head⟩

/-! ## Parents -/

/-- A path whose text ends with a step, unless it has no steps at all. -/
def IsTidy (path : Path) : Prop :=
  path.steps = [] ∨ ∃ before last,
    splitSlashes path.text.toList = before ++ [last] ∧ isIdle last = false

theorem isTidy_of_steps {path : Path} (before : List (List Char)) {last : List Char}
    (cut : splitSlashes path.text.toList = before ++ [last]) (ends : before = [] ∨
      isIdle last = false) : path.IsTidy := by
  cases idle : isIdle last with
  | false => exact .inr ⟨before, last, cut, idle⟩
  | true =>
      refine .inl ?_
      rcases ends with rfl | busy
      · simp [steps, cut, idle]
      · simp [busy] at idle

/-- How the text of a parent is cut: at a beginning of the segments of the path, or it is the text
of the root or the empty one. -/
theorem splitSlashes_parent? {path parent : Path} {first : List Char} {rest : List (List Char)}
    (cut : splitSlashes path.text.toList = first :: rest) (found : path.parent? = some parent) :
    (∃ kept, dropLastPart rest = some kept ∧ (kept = [] → path.isAbsolute = false) ∧
        splitSlashes parent.text.toList = first :: kept) ∨
      (path.isAbsolute = true ∧ parent = ⟨"/"⟩) ∨ (path.isAbsolute = false ∧ parent = ⟨""⟩) := by
  cases dropped : dropLastPart rest with
  | none =>
      simp only [parent?, cut, dropped] at found
      split at found
      · cases found
      · rename_i some
        have relative : path.isAbsolute = false := by
          rw [← Bool.not_eq_true, isAbsolute_iff_of_splitSlashes cut]
          intro root
          exact some (by rw [root.1]; rfl)
        exact .inr (.inr ⟨relative, (Option.some.inj found).symm⟩)
  | some kept =>
      have plain : ∀ segment ∈ first :: kept, '/' ∉ segment := by
        intro segment member
        have inside : segment ∈ first :: rest :=
          ((List.prefix_cons_inj first).mpr (dropLastPart_isPrefix dropped)).subset member
        exact noSlash_of_mem_splitSlashes (cut ▸ inside)
      cases kept with
      | nil =>
          cases absolute : path.isAbsolute with
          | true =>
              simp only [parent?, cut, dropped, absolute, if_true, Option.some.injEq] at found
              exact .inr (.inl ⟨rfl, found.symm⟩)
          | false =>
              simp only [parent?, cut, dropped, absolute, Bool.false_eq_true, if_false,
                Option.some.injEq] at found
              refine .inl ⟨[], rfl, fun _ => rfl, ?_⟩
              rw [← found, String.toList_ofList, splitSlashes_of_not_mem (plain first (by simp))]
      | cons second others =>
          simp only [parent?, cut, dropped, Option.some.injEq] at found
          refine .inl ⟨second :: others, rfl, by simp, ?_⟩
          rw [← found, String.toList_ofList, splitSlashes_joinSlashes (by simp) plain]

theorem isTidy_parent? {path parent : Path} (found : path.parent? = some parent) :
    parent.IsTidy := by
  cases cut : splitSlashes path.text.toList with
  | nil => exact absurd cut (splitSlashes_ne_nil _)
  | cons first rest =>
      rcases splitSlashes_parent? cut found with ⟨kept, dropped, -, text⟩ | ⟨-, rfl⟩ | ⟨-, rfl⟩
      · rcases dropLastPart_ends dropped with rfl | ⟨before, last, rfl, busy⟩
        · exact isTidy_of_steps [] text (.inl rfl)
        · exact isTidy_of_steps (first :: before) text (.inr busy)
      · exact .inl (by decide)
      · exact .inl (by decide)

theorem text_parent?_isPrefix {path parent : Path} (found : path.parent? = some parent) :
    parent.text.toList <+: path.text.toList := by
  cases cut : splitSlashes path.text.toList with
  | nil => exact absurd cut (splitSlashes_ne_nil _)
  | cons first rest =>
      rcases splitSlashes_parent? cut found with
        ⟨kept, dropped, -, text⟩ | ⟨absolute, rfl⟩ | ⟨-, rfl⟩
      · rw [← joinSlashes_splitSlashes parent.text.toList, text,
          ← joinSlashes_splitSlashes path.text.toList, cut]
        exact joinSlashes_isPrefix first (dropLastPart_isPrefix dropped)
      · rw [isAbsolute, beq_iff_eq, List.head?_eq_some_iff] at absolute
        obtain ⟨others, spelled⟩ := absolute
        rw [spelled]
        exact ⟨others, rfl⟩
      · exact List.nil_prefix

/-- The parent of a path has all steps of the path but the last. -/
theorem steps_parent? {path parent : Path} (found : path.parent? = some parent) :
    parent.steps = path.steps.dropLast := by
  rw [steps_eq_filter, parts_parent? found, parts_eq_append_steps]
  rcases List.eq_nil_or_concat path.steps with none | ⟨before, last, some⟩
  · rw [none, List.append_nil, List.dropLast_nil, List.filter_eq_nil_iff]
    intro part member
    have start := filter_isStep_startOf (splitSlashes path.text.toList)
    rw [List.filter_eq_nil_iff] at start
    exact start part ((List.dropLast_prefix _).subset member)
  · rw [List.concat_eq_append] at some
    have steps : ∀ step ∈ before, step ∈ path.steps := by
      intro step member
      simp [some, member]
    rw [some, ← List.append_assoc, List.dropLast_concat, List.dropLast_concat, List.filter_append,
      filter_isStep_startOf, filter_isStep_steps steps, List.nil_append]

/-- A path and its parent start at the same place. -/
theorem isAbsolute_parent? {path parent : Path} (found : path.parent? = some parent) :
    parent.isAbsolute = path.isAbsolute := by
  cases cut : splitSlashes path.text.toList with
  | nil => exact absurd cut (splitSlashes_ne_nil _)
  | cons first rest =>
      rcases splitSlashes_parent? cut found with ⟨kept, dropped, relative, text⟩ |
        ⟨absolute, rfl⟩ | ⟨relative, rfl⟩
      · have more : rest ≠ [] := by
          rintro rfl
          simp [dropLastPart] at dropped
        cases kept with
        | nil =>
            rw [relative rfl, ← Bool.not_eq_true, isAbsolute_iff_of_splitSlashes text]
            simp
        | cons second others =>
            rw [Bool.eq_iff_iff, isAbsolute_iff_of_splitSlashes text,
              isAbsolute_iff_of_splitSlashes cut]
            simp [more]
      · rw [absolute]
        rfl
      · rw [relative]
        rfl

/-- A path without a parent has no steps. -/
theorem steps_of_parent?_eq_none {path : Path} (none : path.parent? = none) : path.steps = [] := by
  by_cases bare : path.parts = []
  · rw [steps_eq_filter, bare, List.filter_nil]
  · by_cases root : path.parts = [['/']]
    · rw [steps_eq_filter, root]
      rfl
    · exact absurd none (parent?_ne_none bare root)

/-! ## Joining -/

theorem isAbsolute_join {next : String} (relative : next.toList.head? ≠ some '/') (path : Path) :
    (path.join next).isAbsolute = path.isAbsolute := by
  obtain ⟨text⟩ := path
  cases spelled : text.toList with
  | nil => simp [join, isAbsolute, spelled, relative]
  | cons c rest =>
      simp only [join, isAbsolute, spelled, beq_iff_eq, relative, if_false]
      split <;> simp [spelled]

/-- A relative path that is joined to another one takes its steps from there. -/
theorem steps_join {next : String} (relative : next.toList.head? ≠ some '/') (path : Path) :
    (path.join next).steps = path.steps ++ steps ⟨next⟩ := by
  obtain ⟨segments, cut, shape⟩ := splitSlashes_join_relative relative path
  rw [String.ofList_toList] at cut
  rw [steps, cut, List.filter_append, steps, steps]
  rcases shape with ⟨rfl, empty⟩ | ⟨-, cutPath | ⟨cutPath, -⟩⟩
  · rw [empty]
    rfl
  · rw [cutPath]
    simp [isIdle]
  · rw [cutPath]

theorem steps_of_isOrdinary {name : String} (ordinary : IsOrdinary name.toList) :
    steps ⟨name⟩ = [name.toList] := by
  rw [steps, splitSlashes_of_not_mem ordinary.noSlash]
  simp [ordinary.isIdle_eq_false]

/-- A path with ordinary parts only has no parts that say where it starts. -/
theorem startOf_of_isOrdinary {next : String} (ordinary : ∀ part ∈ parts ⟨next⟩, IsOrdinary part) :
    startOf (splitSlashes next.toList) = [] := by
  have parts := parts_eq_append_steps ⟨next⟩
  cases cut : splitSlashes next.toList with
  | nil => rfl
  | cons first rest =>
      rw [cut, startOf] at parts
      rw [startOf]
      split
      · rename_i root
        rw [if_pos root] at parts
        exact absurd (List.mem_singleton_self '/') (ordinary ['/'] (by simp [parts])).noSlash
      · rename_i relative
        rw [if_neg relative] at parts
        split
        · rename_i dot
          rw [if_pos dot] at parts
          exact absurd rfl (ordinary ['.'] (by simp [parts])).notDot
        · rfl

/-- A directory with ordinary parts only adds its parts to the path it is joined to. -/
theorem parts_join_of_isOrdinary {next : String}
    (ordinary : ∀ part ∈ parts ⟨next⟩, IsOrdinary part) (path : Path) :
    (path.join next).parts = path.parts ++ parts ⟨next⟩ := by
  have relative := head?_ne_of_isOrdinary ordinary
  have plain := startOf_of_isOrdinary ordinary
  have starts : startOf (splitSlashes (path.join next).text.toList) =
      startOf (splitSlashes path.text.toList) := by
    obtain ⟨segments, cut, shape⟩ := splitSlashes_join_relative relative path
    rw [String.ofList_toList] at cut
    rw [cut]
    rcases shape with ⟨rfl, empty⟩ | ⟨some, cutPath | ⟨cutPath, notEmpty⟩⟩
    · rw [List.nil_append, plain, empty]
      rfl
    · rw [cutPath]
      exact startOf_append_congr some (splitSlashes_ne_nil _) (List.cons_ne_nil _ _)
    · rw [cutPath, startOf_append some notEmpty]
  have parts : parts ⟨next⟩ = steps ⟨next⟩ := by
    rw [parts_eq_append_steps, plain, List.nil_append]
  rw [parts_eq_append_steps, starts, steps_join relative, parts, ← List.append_assoc,
    ← parts_eq_append_steps]

/-! ## File names -/

/-- A path whose text ends with an ordinary name. -/
structure EndsIn (path : Path) (name : List Char) : Prop where
  ordinary : IsOrdinary name
  cut : ∃ segments, splitSlashes path.text.toList = segments ++ [name]

/-- A path ends in the name that ends what it is joined with. -/
theorem EndsIn.join {next : String} {name : List Char} (ends : EndsIn ⟨next⟩ name) (path : Path) :
    (path.join next).EndsIn name := by
  refine ⟨ends.ordinary, ?_⟩
  obtain ⟨before, cut⟩ := ends.cut
  by_cases absolute : next.toList.head? = some '/'
  · exact ⟨before, by simp [Path.join, absolute, cut]⟩
  · obtain ⟨segments, joined, -⟩ := splitSlashes_join_relative absolute path
    rw [String.ofList_toList] at joined
    exact ⟨segments ++ before, by rw [joined, cut, List.append_assoc]⟩

theorem endsIn_join {name : List Char} (ordinary : IsOrdinary name) (path : Path) :
    (path.join (String.ofList name)).EndsIn name := by
  refine EndsIn.join ⟨ordinary, [], ?_⟩ path
  rw [String.toList_ofList, splitSlashes_of_not_mem ordinary.noSlash]
  rfl

namespace EndsIn

variable {path parent : Path} {name : List Char} (ends : path.EndsIn name)

include ends

theorem isTidy : path.IsTidy := by
  obtain ⟨segments, cut⟩ := ends.cut
  exact .inr ⟨segments, name, cut, ends.ordinary.isIdle_eq_false⟩

theorem exists_steps : ∃ before, path.steps = before ++ [name] := by
  obtain ⟨segments, cut⟩ := ends.cut
  exact ⟨segments.filter (!isIdle ·), by simp [steps, cut, ends.ordinary.isIdle_eq_false]⟩

/-- The steps of such a path are those of its parent and the name. -/
theorem steps_eq (found : path.parent? = some parent) : path.steps = parent.steps ++ [name] := by
  obtain ⟨before, steps⟩ := ends.exists_steps
  rw [steps_parent? found, steps, List.dropLast_concat]

theorem exists_parent? : ∃ parent, path.parent? = some parent := by
  obtain ⟨before, steps⟩ := ends.exists_steps
  cases found : path.parent? with
  | some parent => exact ⟨parent, rfl⟩
  | none => simp [steps_of_parent?_eq_none found] at steps

end EndsIn

end ApiBindings.Path
