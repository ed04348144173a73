import ApiBindings.Path

/-!
# Parts of paths

Cutting at slashes and putting slashes between segments undo each other, and the parts of a path can
be told from its segments.  Hence a path that is joined with an ordinary name has the parts of the
path and then the name, however the path itself is written.
-/

namespace ApiBindings.Path

theorem same_iff {first second : Path} : first.same second = true ↔ first.parts = second.parts := by
  simp [same]

/-! ## Cutting at slashes -/

theorem splitSlashes_ne_nil (text : List Char) : splitSlashes text ≠ [] := by
  cases text with
  | nil => simp [splitSlashes]
  | cons c rest =>
      simp only [splitSlashes]
      split <;> simp

theorem splitSlashes_slash (rest : List Char) :
    splitSlashes ('/' :: rest) = [] :: splitSlashes rest := by
  simp [splitSlashes]

/-- A character that is no slash joins the first segment of what follows it. -/
theorem splitSlashes_cons {c : Char} (apart : c ≠ '/') (rest : List Char) :
    ∃ segment segments, splitSlashes rest = segment :: segments ∧
      splitSlashes (c :: rest) = (c :: segment) :: segments := by
  have other : (c == '/') = false := by simpa using apart
  cases cut : splitSlashes rest with
  | nil => exact absurd cut (splitSlashes_ne_nil rest)
  | cons segment segments => exact ⟨segment, segments, rfl, by simp [splitSlashes, other, cut]⟩

theorem splitSlashes_of_not_mem {text : List Char} (plain : '/' ∉ text) :
    splitSlashes text = [text] := by
  induction text with
  | nil => rfl
  | cons c rest ih =>
      simp only [List.mem_cons, not_or] at plain
      obtain ⟨segment, segments, cut, joined⟩ := splitSlashes_cons (Ne.symm plain.1) rest
      rw [ih plain.2] at cut
      cases cut
      exact joined

theorem splitSlashes_append (first second : List Char) :
    splitSlashes (first ++ '/' :: second) = splitSlashes first ++ splitSlashes second := by
  induction first with
  | nil => simp [splitSlashes]
  | cons c rest ih =>
      by_cases slash : c = '/'
      · subst slash
        rw [List.cons_append, splitSlashes_slash, splitSlashes_slash, ih]
        rfl
      · obtain ⟨segment, segments, cut, joined⟩ := splitSlashes_cons slash rest
        obtain ⟨longer, others, cutAll, joinedAll⟩ :=
          splitSlashes_cons slash (rest ++ '/' :: second)
        rw [ih, cut, List.cons_append] at cutAll
        cases cutAll
        rw [List.cons_append, joinedAll, joined, List.cons_append]

/-- Text without slashes joins the last segment of what it follows. -/
theorem splitSlashes_append_of_not_mem {more : List Char} (plain : '/' ∉ more) (text : List Char) :
    ∃ before last, splitSlashes (text ++ more) = before ++ [last ++ more] := by
  induction text with
  | nil => exact ⟨[], [], splitSlashes_of_not_mem plain⟩
  | cons c rest ih =>
      obtain ⟨before, last, cut⟩ := ih
      by_cases slash : c = '/'
      · rw [List.cons_append, slash, splitSlashes_slash, cut]
        exact ⟨[] :: before, last, rfl⟩
      · obtain ⟨segment, segments, cutRest, joined⟩ := splitSlashes_cons slash (rest ++ more)
        rw [cut] at cutRest
        rw [List.cons_append, joined]
        cases before with
        | nil =>
            cases cutRest
            exact ⟨[], c :: last, rfl⟩
        | cons first others =>
            cases cutRest
            exact ⟨(c :: segment) :: others, last, rfl⟩

theorem joinSlashes_cons {segments : List (List Char)} (more : segments ≠ [])
    (segment : List Char) :
    joinSlashes (segment :: segments) = segment ++ '/' :: joinSlashes segments := by
  cases segments with
  | nil => exact absurd rfl more
  | cons => rfl

theorem splitSlashes_joinSlashes {segments : List (List Char)} (some : segments ≠ [])
    (plain : ∀ segment ∈ segments, '/' ∉ segment) :
    splitSlashes (joinSlashes segments) = segments := by
  induction segments with
  | nil => exact absurd rfl some
  | cons segment rest ih =>
      cases rest with
      | nil => exact splitSlashes_of_not_mem (plain segment (by simp))
      | cons second others =>
          rw [joinSlashes_cons (by simp), splitSlashes_append,
            splitSlashes_of_not_mem (plain segment (by simp)),
            ih (by simp) fun other member => plain other (List.mem_cons_of_mem _ member)]
          rfl

theorem noSlash_of_mem_splitSlashes {text segment : List Char}
    (member : segment ∈ splitSlashes text) : '/' ∉ segment := by
  induction text generalizing segment with
  | nil => simp_all [splitSlashes]
  | cons c rest ih =>
      by_cases slash : c = '/'
      · rw [slash, splitSlashes_slash, List.mem_cons] at member
        rcases member with rfl | later
        · simp
        · exact ih later
      · obtain ⟨first, others, cut, joined⟩ := splitSlashes_cons slash rest
        rw [joined, List.mem_cons] at member
        rcases member with rfl | later
        · have inRest : first ∈ splitSlashes rest := by simp [cut]
          simp [Ne.symm slash, ih inRest]
        · exact ih (by simp [cut, later])

/-- A character that is no slash is in a text exactly if it is in one of its segments. -/
theorem mem_iff_mem_splitSlashes {c : Char} (apart : c ≠ '/') (text : List Char) :
    c ∈ text ↔ ∃ segment ∈ splitSlashes text, c ∈ segment := by
  induction text with
  | nil => simp [splitSlashes]
  | cons d rest ih =>
      by_cases slash : d = '/'
      · rw [slash, splitSlashes_slash]
        simp [apart, ih]
      · obtain ⟨segment, segments, cut, joined⟩ := splitSlashes_cons slash rest
        rw [joined, List.mem_cons, ih, cut]
        simp [or_assoc]

theorem splitSlashes_eq_empty_iff {text : List Char} : splitSlashes text = [[]] ↔ text = [] := by
  constructor
  · intro cut
    cases text with
    | nil => rfl
    | cons c rest =>
        by_cases slash : c = '/'
        · rw [slash, splitSlashes_slash] at cut
          simp [splitSlashes_ne_nil] at cut
        · obtain ⟨segment, segments, -, joined⟩ := splitSlashes_cons slash rest
          rw [joined] at cut
          cases cut
  · rintro rfl
    rfl

/-! ## Parts from segments -/

/-- What a path with given segments starts with. An empty segment in front of others is the root. -/
def startOf : List (List Char) → List (List Char)
  | [] => []
  | first :: rest =>
      if first.isEmpty && !rest.isEmpty then [['/']]
      else if first == ['.'] then [['.']]
      else []

/-- The parts of a path with given segments. -/
def partsOf (segments : List (List Char)) : List (List Char) :=
  startOf segments ++ segments.filter (!isIdle ·)

theorem isAbsolute_iff_of_splitSlashes {path : Path} {first : List Char}
    {rest : List (List Char)} (cut : splitSlashes path.text.toList = first :: rest) :
    path.isAbsolute = true ↔ first = [] ∧ rest ≠ [] := by
  cases spelled : path.text.toList with
  | nil => simp_all [isAbsolute, splitSlashes]
  | cons c text =>
      rw [spelled] at cut
      by_cases slash : c = '/'
      · subst slash
        rw [splitSlashes_slash] at cut
        cases cut
        simp [isAbsolute, spelled, splitSlashes_ne_nil]
      · obtain ⟨segment, segments, -, joined⟩ := splitSlashes_cons slash text
        rw [joined] at cut
        cases cut
        simp [isAbsolute, spelled, slash]

theorem parts_eq_partsOf (path : Path) :
    path.parts = partsOf (splitSlashes path.text.toList) := by
  cases cut : splitSlashes path.text.toList with
  | nil => exact absurd cut (splitSlashes_ne_nil _)
  | cons first rest =>
      have root := isAbsolute_iff_of_splitSlashes cut
      cases absolute : path.isAbsolute with
      | true =>
          obtain ⟨empty, more⟩ := root.mp absolute
          simp [parts, partsOf, startOf, cut, absolute, empty, more]
      | false =>
          have relative : (first.isEmpty && !rest.isEmpty) = false := by
            rw [absolute] at root
            simpa using root
          simp [parts, partsOf, startOf, cut, absolute, relative]

/-! ## Joining -/

/-- A name that stands for a file or directory of its own, in the directory it is joined to. -/
structure IsOrdinary (name : List Char) : Prop where
  nonempty : name ≠ []
  noSlash : '/' ∉ name
  notDot : name ≠ ['.']
  notDotDot : name ≠ ['.', '.']

instance (name : List Char) : Decidable (IsOrdinary name) :=
  decidable_of_iff (name ≠ [] ∧ '/' ∉ name ∧ name ≠ ['.'] ∧ name ≠ ['.', '.'])
    ⟨fun ⟨nonempty, noSlash, notDot, notDotDot⟩ => ⟨nonempty, noSlash, notDot, notDotDot⟩,
      fun name => ⟨name.nonempty, name.noSlash, name.notDot, name.notDotDot⟩⟩

theorem IsOrdinary.isIdle_eq_false {name : List Char} (ordinary : IsOrdinary name) :
    isIdle name = false := by
  simp [isIdle, ordinary.nonempty, ordinary.notDot]

theorem IsOrdinary.head?_ne {name : List Char} (ordinary : IsOrdinary name) :
    name.head? ≠ some '/' := by
  intro head
  exact ordinary.noSlash (List.mem_of_mem_head? head)

/-- More segments do not change how a path starts, unless it had none to speak of. -/
theorem startOf_append {segments : List (List Char)} (some : segments ≠ [])
    (notEmpty : segments ≠ [[]]) (more : List (List Char)) :
    startOf (segments ++ more) = startOf segments := by
  cases segments with
  | nil => exact absurd rfl some
  | cons first rest =>
      by_cases root : first = []
      · have others : rest ≠ [] := by
          rintro rfl
          exact notEmpty (by rw [root])
        simp [startOf, root, others]
      · simp [startOf, root]

theorem partsOf_concat {name : List Char} (ordinary : IsOrdinary name)
    {segments : List (List Char)} (some : segments ≠ []) (notEmpty : segments ≠ [[]]) :
    partsOf (segments ++ [name]) = partsOf segments ++ [name] := by
  simp [partsOf, startOf_append some notEmpty, ordinary.isIdle_eq_false]

/-- The segments of a path that is joined with a relative one: those of the other path take the
place of an empty last segment, and otherwise follow. -/
theorem splitSlashes_join_relative {next : List Char} (relative : next.head? ≠ some '/')
    (path : Path) :
    ∃ segments, splitSlashes (path.join (String.ofList next)).text.toList =
        segments ++ splitSlashes next ∧
      (segments = [] ∧ path.text = "" ∨ segments ≠ [] ∧
        (splitSlashes path.text.toList = segments ++ [[]] ∨
          splitSlashes path.text.toList = segments ∧ segments ≠ [[]])) := by
  obtain ⟨text⟩ := path
  simp only [join, String.toList_ofList, beq_iff_eq, relative, if_false]
  by_cases empty : text.toList = []
  · refine ⟨[], ?_, .inl ⟨rfl, String.toList_inj.mp empty⟩⟩
    simp [empty]
  · by_cases closed : text.toList.getLast? = some '/'
    · obtain ⟨init, spelled⟩ := List.getLast?_eq_some_iff.mp closed
      have cut : splitSlashes text.toList = splitSlashes init ++ [[]] := by
        rw [spelled, splitSlashes_append]
        rfl
      refine ⟨splitSlashes init, ?_, .inr ⟨splitSlashes_ne_nil init, .inl cut⟩⟩
      simp [spelled, splitSlashes_append]
    · refine ⟨splitSlashes text.toList, ?_, .inr ⟨splitSlashes_ne_nil _, .inr ⟨rfl, ?_⟩⟩⟩
      · simp [empty, closed, splitSlashes_append]
      · rwa [Ne, splitSlashes_eq_empty_iff]

/-- The segments of a path that is joined with a name. -/
theorem splitSlashes_join {name : List Char} (ordinary : IsOrdinary name) (path : Path) :
    ∃ segments, splitSlashes (path.join (String.ofList name)).text.toList = segments ++ [name] ∧
      (segments = [] ∧ path.text = "" ∨ segments ≠ [] ∧
        (splitSlashes path.text.toList = segments ++ [[]] ∨
          splitSlashes path.text.toList = segments ∧ segments ≠ [[]])) := by
  have joined := splitSlashes_join_relative ordinary.head?_ne path
  rwa [splitSlashes_of_not_mem ordinary.noSlash] at joined

/-- The parts of a path that is joined with an ordinary name: those of the path, then the name. -/
theorem parts_join {name : List Char} (ordinary : IsOrdinary name) (path : Path) :
    (path.join (String.ofList name)).parts = path.parts ++ [name] := by
  obtain ⟨segments, cut, shape⟩ := splitSlashes_join ordinary path
  rw [parts_eq_partsOf, parts_eq_partsOf path, cut]
  rcases shape with ⟨rfl, empty⟩ | ⟨some, cutPath | ⟨cutPath, notEmpty⟩⟩
  · simp [empty, splitSlashes, partsOf, startOf, isIdle, ordinary.nonempty, ordinary.notDot]
  · have starts : startOf (segments ++ [name]) = startOf (segments ++ [[]]) := by
      cases segments with
      | nil => exact absurd rfl some
      | cons first rest => simp [startOf]
    rw [cutPath, partsOf, partsOf, starts]
    simp [isIdle, ordinary.nonempty, ordinary.notDot]
  · rw [cutPath, partsOf_concat ordinary some notEmpty]

/-- An ordinary name that a path is joined with is the file name of the result. -/
theorem fileName?_join {name : List Char} (ordinary : IsOrdinary name) (path : Path) :
    (path.join (String.ofList name)).fileName? = some name := by
  have notRoot : name ≠ ['/'] := by
    intro root
    exact ordinary.noSlash (by simp [root])
  simp [fileName?, parts_join ordinary, notRoot, ordinary.notDot, ordinary.notDotDot]

end ApiBindings.Path
