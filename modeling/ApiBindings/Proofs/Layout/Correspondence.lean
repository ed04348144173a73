import ApiBindings.Proofs.Layout.FilePath
import ApiBindings.Proofs.Layout.ImportPath
import Mathlib.Data.List.Basic

/-!
# Files and modules

Two types share a file exactly if they are of one category and one file case, whatever the
directories of a layout are, and exactly then they share a module for everyone who imports them.
The names of different files differ in more than the size of their letters, so that the files stay
apart in one directory, and on a file system that takes a capital for the small letter.
-/

namespace ApiBindings

open Identifier (isValid isPart isFilePart toFileCase)

/-! ## Small letters -/

theorem Identifier.isPart_of_isFilePart {c : Char} (part : isFilePart c = true) :
    isPart c = true ∨ c = '-' := by
  have letter : c.isAlpha = (c.isUpper || c.isLower) := rfl
  simp only [isFilePart, isPart, Char.isAlphanum, letter, Bool.or_eq_true, beq_iff_eq] at part ⊢
  rcases part with ((small | digit) | dollar) | hyphen
  · exact .inl (.inl (.inl (.inl (.inr small))))
  · exact .inl (.inl (.inl (.inr digit)))
  · exact .inl (.inr dollar)
  · exact .inr hyphen

/-- There are no capitals in a file case. -/
theorem Identifier.toLower_of_isFilePart {c : Char} (part : isFilePart c = true) :
    c.toLower = c := by
  rcases isPart_of_isFilePart part with identifier | rfl
  · have checked := of_all_ascii (fun c => !isFilePart c || c.toLower == c) (by decide +kernel)
      (toNat_lt_of_isPart identifier)
    simpa only [part, Bool.not_true, Bool.false_or, beq_iff_eq] using checked
  · rfl

namespace Layout

variable {layout : Layout} {consumer category otherCategory : Category}
  {typeName otherName : String}

theorem map_toLower_fileNameOf {stem : String} (spelled : ∀ d ∈ stem.toList, isFilePart d = true)
    (category : Category) :
    (fileNameOf stem category).toList.map Char.toLower = (fileNameOf stem category).toList := by
  have unchanged : ∀ c ∈ (fileNameOf stem category).toList, c.toLower = c := by
    intro c member
    rcases mem_fileNameOf spelled member with part | rfl
    · exact Identifier.toLower_of_isFilePart part
    · rfl
  rw [List.map_congr_left unchanged, List.map_id']

/-! ## Same files, same modules -/

theorem exists_filePath? (layout : Layout) (category : Category) (valid : isValid typeName = true)
    (lettered : ∃ c ∈ typeName.toList, c ≠ '_') :
    ∃ file, layout.filePath? typeName category = some file := by
  obtain ⟨stem, cased⟩ := (Identifier.exists_toFileCase_iff valid).mpr lettered
  exact ⟨_, filePath?_eq_some_iff.mpr ⟨stem, cased, rfl⟩⟩

theorem exists_importPath? (layout : Layout) (consumer category : Category)
    (valid : isValid typeName = true) (lettered : ∃ c ∈ typeName.toList, c ≠ '_') :
    ∃ path, layout.importPath? consumer typeName category = some path := by
  obtain ⟨stem, cased⟩ := (Identifier.exists_toFileCase_iff valid).mpr lettered
  exact ⟨_, importPath?_eq_some_iff.mpr ⟨stem, cased, rfl⟩⟩

/-- A file is known by its name, wherever the directories are. -/
theorem same_iff_of_filePath? {file other : Path} (valid : isValid typeName = true)
    (validToo : isValid otherName = true)
    (found : layout.filePath? typeName category = some file)
    (foundToo : layout.filePath? otherName otherCategory = some other) :
    file.same other = true ↔
      category = otherCategory ∧ toFileCase typeName = toFileCase otherName := by
  constructor
  · intro same
    obtain ⟨stem, cased, -, -, parts⟩ := exists_stem_of_filePath? valid found
    obtain ⟨otherStem, otherCased, -, -, otherParts⟩ := exists_stem_of_filePath? validToo foundToo
    have last := congrArg List.getLast? (Path.same_iff.mp same)
    rw [parts, otherParts, List.getLast?_concat, List.getLast?_concat, Option.some.injEq,
      String.toList_inj, fileNameOf_inj] at last
    rw [cased, otherCased, last.1]
    exact ⟨last.2, rfl⟩
  · rintro ⟨rfl, cased⟩
    obtain ⟨stem, own, rfl⟩ := filePath?_eq_some_iff.mp found
    obtain ⟨otherStem, otherOwn, rfl⟩ := filePath?_eq_some_iff.mp foundToo
    rw [own, otherOwn, Except.ok.injEq] at cased
    rw [cased, Path.same_iff]

/-- A module is known by its name, from wherever it is imported. -/
theorem eq_iff_of_importPath? {path other : String}
    (found : layout.importPath? consumer typeName category = some path)
    (foundToo : layout.importPath? consumer otherName otherCategory = some other) :
    path = other ↔ category = otherCategory ∧ toFileCase typeName = toFileCase otherName := by
  constructor
  · rintro rfl
    obtain rfl := category_of_importPath? found foundToo
    obtain ⟨stem, cased, spelled⟩ := importPath?_eq_some_iff.mp found
    obtain ⟨otherStem, otherCased, otherSpelled⟩ := importPath?_eq_some_iff.mp foundToo
    have same := spelled.symm.trans otherSpelled
    rw [String.append_right_inj, moduleNameOf, moduleNameOf, String.append_left_inj,
      String.append_left_inj] at same
    rw [cased, otherCased, same]
    exact ⟨rfl, rfl⟩
  · rintro ⟨rfl, cased⟩
    obtain ⟨stem, own, rfl⟩ := importPath?_eq_some_iff.mp found
    obtain ⟨otherStem, otherOwn, rfl⟩ := importPath?_eq_some_iff.mp foundToo
    rw [own, otherOwn, Except.ok.injEq] at cased
    rw [cased]

/-- The name of a file tells it from others even if capitals count as small letters. -/
theorem lowered_eq_iff_of_filePath? {file other : Path} (valid : isValid typeName = true)
    (validToo : isValid otherName = true)
    (found : layout.filePath? typeName category = some file)
    (foundToo : layout.filePath? otherName otherCategory = some other) :
    ∃ name otherName, file.fileName? = some name ∧ other.fileName? = some otherName ∧
      (file.same other = true ↔ name.map Char.toLower = otherName.map Char.toLower) := by
  obtain ⟨stem, cased, named, -⟩ := exists_stem_of_filePath? valid found
  obtain ⟨otherStem, otherCased, otherNamed, -⟩ := exists_stem_of_filePath? validToo foundToo
  refine ⟨_, _, named, otherNamed, ?_⟩
  rw [same_iff_of_filePath? valid validToo found foundToo, cased, otherCased, Except.ok.injEq,
    map_toLower_fileNameOf (Identifier.isFilePart_of_toFileCase valid cased),
    map_toLower_fileNameOf (Identifier.isFilePart_of_toFileCase validToo otherCased),
    String.toList_inj, fileNameOf_inj]
  exact and_comm

/-- The files of two types are the same exactly if the types are of one category and one file case,
exactly if everyone imports them from the same module, and exactly if the last parts of their paths
agree up to the size of letters. -/
theorem files_correspond_to_modules (layout : Layout) {typeName otherName : String}
    (category otherCategory : Category) (valid : isValid typeName = true)
    (validToo : isValid otherName = true) (lettered : ∃ c ∈ typeName.toList, c ≠ '_')
    (letteredToo : ∃ c ∈ otherName.toList, c ≠ '_') :
    ∃ file other, layout.filePath? typeName category = some file ∧
      layout.filePath? otherName otherCategory = some other ∧
      (file.same other = true ↔
        category = otherCategory ∧ toFileCase typeName = toFileCase otherName) ∧
      (∀ consumer, ∃ path otherPath,
        layout.importPath? consumer typeName category = some path ∧
        layout.importPath? consumer otherName otherCategory = some otherPath ∧
        (file.same other = true ↔ path = otherPath)) ∧
      ∃ name otherName, file.fileName? = some name ∧ other.fileName? = some otherName ∧
        (file.same other = true ↔ name.map Char.toLower = otherName.map Char.toLower) := by
  obtain ⟨file, found⟩ := exists_filePath? layout category valid lettered
  obtain ⟨other, foundToo⟩ := exists_filePath? layout otherCategory validToo letteredToo
  have same := same_iff_of_filePath? valid validToo found foundToo
  refine ⟨file, other, found, foundToo, same, ?_,
    lowered_eq_iff_of_filePath? valid validToo found foundToo⟩
  intro consumer
  obtain ⟨path, imported⟩ := exists_importPath? layout consumer category valid lettered
  obtain ⟨otherPath, importedToo⟩ :=
    exists_importPath? layout consumer otherCategory validToo letteredToo
  exact ⟨path, otherPath, imported, importedToo,
    same.trans (eq_iff_of_importPath? imported importedToo).symm⟩

/-- Two spellings of one file case share a file, but not with an enumeration in that directory. -/
theorem files_correspond_to_modules_shared :
    let layout : Layout := { root := ⟨"out"⟩, models := "../types/.", enums := "../types/." }
    isValid "HTTPStatus" = true ∧ isValid "Http_status" = true ∧
      (∃ file other, layout.filePath? "HTTPStatus" .model = some file ∧
        layout.filePath? "Http_status" .model = some other ∧ file.same other = true) ∧
      ∃ file other, layout.filePath? "HTTPStatus" .model = some file ∧
        layout.filePath? "Http_status" .enum = some other ∧ file.same other = false := by
  intro layout
  have valid : isValid "HTTPStatus" = true := by decide
  have validToo : isValid "Http_status" = true := by decide
  have lettered : ∃ c ∈ "HTTPStatus".toList, c ≠ '_' := ⟨'H', by simp, by decide⟩
  have letteredToo : ∃ c ∈ "Http_status".toList, c ≠ '_' := ⟨'H', by simp, by decide⟩
  have cased : toFileCase "HTTPStatus" = toFileCase "Http_status" := by decide +kernel
  refine ⟨valid, validToo, ?_, ?_⟩
  · obtain ⟨file, other, found, foundToo, same, -⟩ :=
      files_correspond_to_modules layout .model .model valid validToo lettered letteredToo
    exact ⟨file, other, found, foundToo, same.mpr ⟨rfl, cased⟩⟩
  · obtain ⟨file, other, found, foundToo, same, -⟩ :=
      files_correspond_to_modules layout .model .enum valid validToo lettered letteredToo
    refine ⟨file, other, found, foundToo, ?_⟩
    rw [← Bool.not_eq_true, same]
    rintro ⟨⟨⟩, -⟩

end Layout

end ApiBindings
