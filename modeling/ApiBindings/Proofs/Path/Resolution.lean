import ApiBindings.Proofs.Path.Parts

/-!
# Resolved paths

Where a path leads by its text alone, with every dot and every pair of dots taken away.  Two dots
take back the part before them, so that a relative path that starts with them leaves the last
directory of the path it is joined to, and only that one.
-/

namespace ApiBindings.Path

/-- Go on by one part from those gone so far, the latest first. Two dots take the latest part back,
unless it is the root or stands for two dots itself. -/
def follow (gone : List (List Char)) (part : List Char) : List (List Char) :=
  if isIdle part then gone
  else if part = ['.', '.'] then
    match gone with
    | [] => [part]
    | last :: before =>
        if last = ['/'] then gone else if last = ['.', '.'] then part :: gone else before
  else part :: gone

/-- Where a path leads by its text, the innermost part first. -/
def resolved (path : Path) : List (List Char) :=
  path.parts.foldl follow []

/-! ## Single parts -/

@[simp] theorem follow_dot (gone : List (List Char)) : follow gone ['.'] = gone := by
  simp [follow, isIdle]

theorem follow_of_isOrdinary {part : List Char} (ordinary : IsOrdinary part)
    (gone : List (List Char)) : follow gone part = part :: gone := by
  simp [follow, ordinary.isIdle_eq_false, ordinary.notDotDot]

/-- Two dots lead out of the directory before them. -/
theorem follow_dotDot {last : List Char} (ordinary : IsOrdinary last)
    (before : List (List Char)) : follow (last :: before) ['.', '.'] = before := by
  have notRoot : last ≠ ['/'] := by
    rintro rfl
    exact ordinary.noSlash (by simp)
  simp [follow, isIdle, notRoot, ordinary.notDotDot]

theorem foldl_follow_of_isOrdinary {parts : List (List Char)}
    (ordinary : ∀ part ∈ parts, IsOrdinary part) (gone : List (List Char)) :
    parts.foldl follow gone = parts.reverse ++ gone := by
  induction parts generalizing gone with
  | nil => rfl
  | cons part rest ih =>
      rw [List.forall_mem_cons] at ordinary
      rw [List.foldl_cons, follow_of_isOrdinary ordinary.1, ih ordinary.2, List.reverse_cons,
        List.append_assoc, List.singleton_append]

/-- Segments that lead nowhere can be left out. -/
theorem foldl_follow_filter (segments gone : List (List Char)) :
    (segments.filter (!isIdle ·)).foldl follow gone = segments.foldl follow gone := by
  induction segments generalizing gone with
  | nil => rfl
  | cons segment rest ih =>
      cases idle : isIdle segment with
      | true => simp [follow, idle, ih]
      | false => simp [idle, ih]

/-! ## Joined paths -/

/-- How a path starts depends on its first segment, and on whether there are others. -/
theorem startOf_append_congr {segments first second : List (List Char)} (some : segments ≠ [])
    (more : first ≠ []) (moreToo : second ≠ []) :
    startOf (segments ++ first) = startOf (segments ++ second) := by
  cases segments with
  | nil => exact absurd rfl some
  | cons head rest => simp [startOf, more, moreToo]

/-- The start of a relative path leads nowhere. -/
theorem foldl_follow_startOf {text : List Char} (relative : text.head? ≠ some '/')
    (gone : List (List Char)) : (startOf (splitSlashes text)).foldl follow gone = gone := by
  cases cut : splitSlashes text with
  | nil => rfl
  | cons first rest =>
      have start : ¬ (first = [] ∧ rest ≠ []) := by
        have cutPath : splitSlashes (Path.mk (String.ofList text)).text.toList = first :: rest := by
          rw [String.toList_ofList, cut]
        rw [← isAbsolute_iff_of_splitSlashes cutPath]
        simpa [isAbsolute] using relative
      have plain : (first.isEmpty && !rest.isEmpty) = false := by simpa using start
      by_cases dot : first = ['.'] <;> simp [startOf, plain, dot]

theorem resolved_eq_foldl (path : Path) :
    path.resolved = (splitSlashes path.text.toList).foldl follow
      ((startOf (splitSlashes path.text.toList)).foldl follow []) := by
  rw [resolved, parts_eq_partsOf, partsOf, List.foldl_append, foldl_follow_filter]

/-- A relative path is followed from where the path before it leads. -/
theorem resolved_join {next : List Char} (relative : next.head? ≠ some '/') (path : Path) :
    (path.join (String.ofList next)).resolved = (splitSlashes next).foldl follow path.resolved := by
  obtain ⟨segments, cut, shape⟩ := splitSlashes_join_relative relative path
  rw [resolved_eq_foldl, resolved_eq_foldl path, cut]
  rcases shape with ⟨rfl, empty⟩ | ⟨some, cutPath | ⟨cutPath, notEmpty⟩⟩
  · rw [List.nil_append, foldl_follow_startOf relative, empty]
    rfl
  · have starts := startOf_append_congr some (splitSlashes_ne_nil next) (List.cons_ne_nil [] [])
    rw [cutPath, starts, List.foldl_append, List.foldl_append]
    rfl
  · rw [cutPath, startOf_append some notEmpty, List.foldl_append]

theorem head?_ne_of_isOrdinary {next : String}
    (ordinary : ∀ part ∈ parts ⟨next⟩, IsOrdinary part) : next.toList.head? ≠ some '/' := by
  intro root
  have member : ['/'] ∈ parts ⟨next⟩ := by simp [parts, isAbsolute, root]
  exact (ordinary _ member).noSlash (by simp)

theorem foldl_follow_splitSlashes {next : String}
    (ordinary : ∀ part ∈ parts ⟨next⟩, IsOrdinary part) (gone : List (List Char)) :
    (splitSlashes next.toList).foldl follow gone = (parts ⟨next⟩).reverse ++ gone := by
  rw [← foldl_follow_of_isOrdinary ordinary, parts_eq_partsOf, partsOf, List.foldl_append,
    foldl_follow_filter, foldl_follow_startOf (head?_ne_of_isOrdinary ordinary)]

/-- A directory with ordinary parts only is one below another, however deep. -/
theorem resolved_join_of_isOrdinary {next : String}
    (ordinary : ∀ part ∈ parts ⟨next⟩, IsOrdinary part) (path : Path) :
    (path.join next).resolved = (parts ⟨next⟩).reverse ++ path.resolved := by
  have joined := resolved_join (head?_ne_of_isOrdinary ordinary) path
  rwa [String.ofList_toList, foldl_follow_splitSlashes ordinary] at joined

end ApiBindings.Path
