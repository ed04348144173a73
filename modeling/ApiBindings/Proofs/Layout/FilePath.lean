import ApiBindings.Layout
import ApiBindings.Proofs.Identifier.FileCase
import ApiBindings.Proofs.Path.Parts

/-!
# Paths of generated files

The file for a type lies right in the directory of its category: the name of an identifier's file is
one ordinary name, which says both the file case of the type and the category.
-/

namespace ApiBindings

open Identifier (isValid isFilePart toFileCase)

namespace Layout

/-- The directory that the files of a category are written to. -/
def directoryPath (layout : Layout) (category : Category) : Path :=
  layout.root.join (layout.directory category)

/-- The name of a file, from the file case of its type. -/
def fileNameOf (stem : String) (category : Category) : String :=
  stem ++ "." ++ category.text ++ ".ts"

theorem fileName_eq (typeName : String) (category : Category) :
    fileName typeName category = (toFileCase typeName).map (fileNameOf · category) := by
  cases cased : toFileCase typeName <;> simp [fileName, moduleName, fileNameOf, cased] <;> rfl

theorem filePath?_eq_some_iff {layout : Layout} {typeName : String} {category : Category}
    {path : Path} :
    layout.filePath? typeName category = some path ↔
      ∃ stem, toFileCase typeName = .ok stem ∧
        path = (layout.directoryPath category).join (fileNameOf stem category) := by
  cases cased : toFileCase typeName with
  | error error => simp [filePath?, fileName_eq, cased, Except.map]
  | ok stem =>
      simp only [filePath?, fileName_eq, cased, Except.map, Except.ok.injEq, Option.some.injEq,
        exists_eq_left', directoryPath]
      exact eq_comm

/-! ## The name of a file -/

theorem toList_fileNameOf (stem : String) (category : Category) :
    (fileNameOf stem category).toList =
      stem.toList ++ '.' :: (category.text.toList ++ ['.', 't', 's']) := by
  simp [fileNameOf]

/-- A character of a file name is one of its type's file case, or one of its suffixes. -/
theorem mem_fileNameOf {stem : String} {category : Category} {c : Char}
    (spelled : ∀ d ∈ stem.toList, isFilePart d = true)
    (member : c ∈ (fileNameOf stem category).toList) : isFilePart c = true ∨ c = '.' := by
  rw [toList_fileNameOf, List.mem_append] at member
  rcases member with own | suffix
  · exact .inl (spelled c own)
  · have checked : ('.' :: (category.text.toList ++ ['.', 't', 's'])).all
        (fun c => isFilePart c || c == '.') = true := by
      cases category <;> decide
    simpa using List.all_eq_true.mp checked c suffix

theorem isOrdinary_fileNameOf {stem : String} {category : Category}
    (spelled : ∀ d ∈ stem.toList, isFilePart d = true) :
    Path.IsOrdinary (fileNameOf stem category).toList where
  nonempty := by simp [toList_fileNameOf]
  noSlash := by
    intro member
    rcases mem_fileNameOf spelled member with part | dot
    · exact absurd part (by decide)
    · exact absurd dot (by decide)
  notDot := by
    intro dot
    have length := congrArg List.length dot
    simp [toList_fileNameOf] at length
    omega
  notDotDot := by
    intro dots
    have length := congrArg List.length dots
    simp [toList_fileNameOf] at length
    omega

/-- The name of a file tells its category and the file case of its type. -/
theorem fileNameOf_inj {stem other : String} {category otherCategory : Category} :
    fileNameOf stem category = fileNameOf other otherCategory ↔
      stem = other ∧ category = otherCategory := by
  constructor
  · intro same
    have reversed := congrArg (fun name => name.toList.reverse) same
    simp only [toList_fileNameOf, List.reverse_append, List.reverse_cons] at reversed
    -- Read from the back, the suffixes of two categories differ at their first letters.
    cases category <;> cases otherCategory <;> simp [Category.text] at reversed
    all_goals exact ⟨String.toList_inj.mp reversed, rfl⟩
  · rintro ⟨rfl, rfl⟩
    rfl

/-! ## The path of a file -/

variable {layout : Layout} {typeName : String} {category : Category} {path : Path}

/-- The file for an identifier lies in the directory of its category, under a name of its own. -/
theorem exists_stem_of_filePath? (valid : isValid typeName = true)
    (found : layout.filePath? typeName category = some path) :
    ∃ stem, toFileCase typeName = .ok stem ∧
      path.fileName? = some (fileNameOf stem category).toList ∧
      Path.IsOrdinary (fileNameOf stem category).toList ∧
      path.parts =
        (layout.directoryPath category).parts ++ [(fileNameOf stem category).toList] := by
  obtain ⟨stem, cased, rfl⟩ := filePath?_eq_some_iff.mp found
  have ordinary : Path.IsOrdinary (fileNameOf stem category).toList :=
    isOrdinary_fileNameOf (Identifier.isFilePart_of_toFileCase valid cased)
  have parts := Path.parts_join ordinary (layout.directoryPath category)
  have name := Path.fileName?_join ordinary (layout.directoryPath category)
  rw [String.ofList_toList] at parts name
  exact ⟨stem, cased, name, ordinary, parts⟩

end Layout

end ApiBindings
