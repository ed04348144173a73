import ApiBindings.Proofs.Path.Parts

/-!
# Parents of paths

The parent of a path has the parts of the path without the last one, and only a path without a part
to leave out has no parent.  So the directories around a path are beginnings of it, part by part.
-/

namespace ApiBindings.Path

/-- A character other than a slash or a dot is in a path exactly if it is in one of its parts. -/
theorem mem_iff_mem_parts {c : Char} (notSlash : c ≠ '/') (notDot : c ≠ '.') (path : Path) :
    c ∈ path.text.toList ↔ ∃ part ∈ path.parts, c ∈ part := by
  rw [mem_iff_mem_splitSlashes notSlash, parts_eq_partsOf]
  constructor
  · rintro ⟨segment, member, inside⟩
    have busy : isIdle segment = false := by
      rw [isIdle, Bool.or_eq_false_iff, beq_eq_false_iff_ne]
      refine ⟨?_, ?_⟩
      · cases segment <;> simp_all
      · rintro rfl
        exact notDot (List.mem_singleton.mp inside)
    exact ⟨segment, by simp [partsOf, member, busy], inside⟩
  · rintro ⟨part, member, inside⟩
    rw [partsOf, List.mem_append] at member
    rcases member with start | segment
    · cases segments : splitSlashes path.text.toList with
      | nil => exact absurd segments (splitSlashes_ne_nil _)
      | cons first rest =>
          rw [segments, startOf] at start
          split at start
          · simp_all
          · split at start
            · simp_all
            · simp at start
    · exact ⟨part, (List.mem_filter.mp segment).1, inside⟩

/-! ## Leaving out the last part -/

theorem filter_dropWhile_isIdle (segments : List (List Char)) :
    (segments.dropWhile isIdle).filter (!isIdle ·) = segments.filter (!isIdle ·) := by
  induction segments with
  | nil => rfl
  | cons segment rest ih =>
      cases idle : isIdle segment with
      | true => simp [idle, ih]
      | false => simp [idle]

theorem dropLastPart_eq_none {segments : List (List Char)} (none : dropLastPart segments = none) :
    segments.filter (!isIdle ·) = [] := by
  rw [dropLastPart] at none
  cases busy : segments.reverse.dropWhile isIdle with
  | nil =>
      have filtered := filter_dropWhile_isIdle segments.reverse
      rw [busy, List.filter_reverse] at filtered
      simpa using filtered.symm
  | cons last rest => simp [busy] at none

/-- What is kept are some of the segments, and all of those that lead somewhere but the last. -/
theorem dropLastPart_eq_some {segments kept : List (List Char)}
    (found : dropLastPart segments = some kept) :
    (∀ segment ∈ kept, segment ∈ segments) ∧
      ∃ last, segments.filter (!isIdle ·) = kept.filter (!isIdle ·) ++ [last] := by
  rw [dropLastPart] at found
  cases busy : segments.reverse.dropWhile isIdle with
  | nil => simp [busy] at found
  | cons last rest =>
      simp only [busy, Option.some.injEq] at found
      subst found
      have within : ∀ segment ∈ last :: rest, segment ∈ segments := by
        intro segment member
        rw [← busy] at member
        exact List.mem_reverse.mp (List.dropWhile_subset _ member)
      constructor
      · intro segment member
        have inRest := List.dropWhile_subset _ (List.mem_reverse.mp member)
        exact within segment (List.mem_cons_of_mem _ inRest)
      · have filtered := filter_dropWhile_isIdle segments.reverse
        have leads : isIdle last = false := by
          have head := List.head?_dropWhile_not isIdle segments.reverse
          simpa [busy] using head
        rw [busy, List.filter_reverse, List.filter_cons, leads] at filtered
        refine ⟨last, ?_⟩
        have ordered := congrArg List.reverse filtered
        rw [List.reverse_reverse] at ordered
        simp [← ordered, List.filter_reverse, filter_dropWhile_isIdle]

/-! ## Parents -/

/-- A path with a segment in front of others starts like the path that has only that segment, unless
it starts at the root. -/
theorem startOf_cons {first : List Char} (some : first ≠ []) (rest : List (List Char)) :
    startOf (first :: rest) = startOf [first] := by
  simp [startOf, some]

theorem parts_parent?_of_dropLastPart {path parent : Path} {first : List Char}
    {rest kept : List (List Char)} (cut : splitSlashes path.text.toList = first :: rest)
    (dropped : dropLastPart rest = some kept) (found : path.parent? = some parent) :
    parent.parts = path.parts.dropLast := by
  obtain ⟨within, last, filtered⟩ := dropLastPart_eq_some dropped
  have more : rest ≠ [] := by
    rintro rfl
    simp at filtered
  have plain : ∀ segment ∈ first :: kept, '/' ∉ segment := by
    intro segment member
    have inside : segment ∈ splitSlashes path.text.toList := by
      rw [cut]
      rcases List.mem_cons.mp member with rfl | inKept
      · simp
      · exact List.mem_cons_of_mem _ (within segment inKept)
    exact noSlash_of_mem_splitSlashes inside
  have whole : path.parts =
      startOf (first :: rest) ++ (first :: kept).filter (!isIdle ·) ++ [last] := by
    rw [parts_eq_partsOf, cut, partsOf, List.filter_cons, List.filter_cons, filtered]
    split <;> simp
  rw [whole, List.dropLast_concat]
  have absolute := isAbsolute_iff_of_splitSlashes cut
  cases kept with
  | nil =>
      by_cases root : first = []
      · have starts : path.isAbsolute = true := absolute.mpr ⟨root, more⟩
        simp only [parent?, cut, dropped, starts, if_true, Option.some.injEq] at found
        subst found root
        simp [parts, isAbsolute, splitSlashes, startOf, more, isIdle]
      · have starts : path.isAbsolute = false := by
          rw [← Bool.not_eq_true, absolute]
          exact fun both => root both.1
        simp only [parent?, cut, dropped, starts, Bool.false_eq_true, if_false,
          Option.some.injEq] at found
        subst found
        rw [parts_eq_partsOf, String.toList_ofList,
          splitSlashes_of_not_mem (plain first (by simp)), partsOf, startOf_cons root rest]
  | cons second others =>
      simp only [parent?, cut, dropped, Option.some.injEq] at found
      subst found
      rw [parts_eq_partsOf, String.toList_ofList, splitSlashes_joinSlashes (by simp) plain, partsOf]
      by_cases root : first = []
      · simp [startOf, root, more]
      · rw [startOf_cons root rest, startOf_cons root (second :: others)]

/-- The parts of a path whose segments after the first lead nowhere: at most one. -/
theorem parts_of_dropLastPart_eq_none {path : Path} {first : List Char} {rest : List (List Char)}
    (cut : splitSlashes path.text.toList = first :: rest) (none : dropLastPart rest = none) :
    path.parts = startOf (first :: rest) ++ [first].filter (!isIdle ·) := by
  rw [parts_eq_partsOf, cut, partsOf, List.filter_cons, dropLastPart_eq_none none]
  simp [List.filter_cons]

/-- The parent of a path has all parts of the path but the last. -/
theorem parts_parent? {path parent : Path} (found : path.parent? = some parent) :
    parent.parts = path.parts.dropLast := by
  cases cut : splitSlashes path.text.toList with
  | nil => exact absurd cut (splitSlashes_ne_nil _)
  | cons first rest =>
      cases dropped : dropLastPart rest with
      | some kept => exact parts_parent?_of_dropLastPart cut dropped found
      | none =>
          rw [parts_of_dropLastPart_eq_none cut dropped]
          simp only [parent?, cut, dropped] at found
          split at found
          · simp at found
          · rename_i some
            have parent_eq : parent = ⟨""⟩ := (Option.some.inj found).symm
            have bare : parts ⟨""⟩ = [] := by decide
            rw [parent_eq, bare]
            rw [List.isEmpty_iff] at some
            by_cases dot : first = ['.']
            · simp [startOf, dot, isIdle]
            · simp [startOf, isIdle, dot, some]

/-- Only the root and paths without parts have no parent. -/
theorem parent?_ne_none {path : Path} (some : path.parts ≠ []) (notRoot : path.parts ≠ [['/']]) :
    path.parent? ≠ none := by
  intro none
  cases cut : splitSlashes path.text.toList with
  | nil => exact absurd cut (splitSlashes_ne_nil _)
  | cons first rest =>
      cases dropped : dropLastPart rest with
      | some kept => cases kept <;> simp [parent?, cut, dropped] at none
      | none =>
          have few := parts_of_dropLastPart_eq_none cut dropped
          simp only [parent?, cut, dropped] at none
          split at none
          · rename_i empty
            rw [List.isEmpty_iff] at empty
            subst empty
            cases rest with
            | nil => exact some (by rw [few]; decide)
            | cons second others => exact notRoot (by rw [few]; simp [startOf, isIdle])
          · simp at none

theorem text_ne_nil_of_parent? {path parent : Path} (found : path.parent? = some parent) :
    path.text.toList ≠ [] := by
  intro empty
  simp [parent?, empty, splitSlashes, dropLastPart] at found

/-! ## Directories around a path -/

/-- A path with a parent is the first of its directories. -/
theorem directories_of_parent? {path parent : Path} (found : path.parent? = some parent) :
    ∃ around, path.directories = path :: around := by
  have length : path.text.length ≠ 0 := by
    rw [← String.length_toList, ne_eq, List.length_eq_zero_iff]
    exact text_ne_nil_of_parent? found
  obtain ⟨count, more⟩ := Nat.exists_eq_succ_of_ne_zero length
  exact ⟨parent.around count, by simp [directories, more, around, found]⟩

/-- A directory around a path is a beginning of it, part by part. -/
theorem parts_isPrefix_of_mem_around {directory : Path} {count : Nat} {path : Path}
    (member : directory ∈ path.around count) : directory.parts <+: path.parts := by
  induction count generalizing path with
  | zero => simp [around] at member
  | succ count ih =>
      cases found : path.parent? with
      | none => simp [around, found] at member
      | some parent =>
          simp only [around, found, List.mem_cons] at member
          rcases member with rfl | further
          · exact List.prefix_rfl
          · have nearer := ih further
            rw [parts_parent? found] at nearer
            exact nearer.trans (List.dropLast_prefix _)

theorem parts_isPrefix_of_mem_directories {directory path : Path}
    (member : directory ∈ path.directories) : directory.parts <+: path.parts :=
  parts_isPrefix_of_mem_around member

end ApiBindings.Path
