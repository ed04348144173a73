import ApiBindings.Proofs.Layout.FilePath
import ApiBindings.Proofs.Layout.ImportPath
import ApiBindings.Proofs.Path.Parent
import ApiBindings.Proofs.Path.Resolution

/-!
# What import paths lead to

A file is written below the root and its directory, however deep that directory is, while an import
path goes up one directory at most.  So the import path of a file leads to the file exactly if the
importing file is in the same directory, or in one right below the root.
-/

namespace ApiBindings

open Identifier (isValid isFilePart toFileCase)

/-- A module path in a file leads to another file: followed from the directory of the first, it ends
where the second is, without the extension that module paths leave out. -/
def Path.ImportLeadsTo (file : Path) (modulePath : String) (target : Path) : Prop :=
  ∃ directory bare : Path, file.parent? = some directory ∧ target.text = bare.text ++ ".ts" ∧
    (directory.join modulePath).resolved = bare.resolved

theorem Path.text_join_append {next : String} (some : next ≠ "") (more : String) (path : Path) :
    (path.join (next ++ more)).text = (path.join next).text ++ more := by
  have head : (next ++ more).toList.head? = next.toList.head? := by
    cases spelled : next.toList with
    | nil => exact absurd (String.toList_inj.mp spelled) some
    | cons c rest => simp [spelled]
  simp only [join, head]
  split
  · rfl
  · split <;> simp only [String.append_assoc]

namespace Layout

/-- A directory with a name or several, each of them ordinary. -/
structure IsOrdinaryDirectory (directory : String) : Prop where
  nonempty : Path.parts ⟨directory⟩ ≠ []
  ordinary : ∀ part ∈ Path.parts ⟨directory⟩, Path.IsOrdinary part

instance (directory : String) : Decidable (IsOrdinaryDirectory directory) :=
  decidable_of_iff (Path.parts ⟨directory⟩ ≠ [] ∧
      ∀ part ∈ Path.parts ⟨directory⟩, Path.IsOrdinary part)
    ⟨fun ⟨nonempty, ordinary⟩ => ⟨nonempty, ordinary⟩,
      fun directory => ⟨directory.nonempty, directory.ordinary⟩⟩

variable {layout : Layout} {consumer dependency category : Category}

/-! ## The name of a module -/

theorem fileNameOf_eq (stem : String) (category : Category) :
    fileNameOf stem category = moduleNameOf stem category ++ ".ts" := rfl

theorem moduleNameOf_ne_empty (stem : String) (category : Category) :
    moduleNameOf stem category ≠ "" := by
  intro empty
  have letters := congrArg String.toList empty
  simp [moduleNameOf] at letters

theorem isOrdinary_moduleNameOf {stem : String}
    (spelled : ∀ d ∈ stem.toList, isFilePart d = true) (category : Category) :
    Path.IsOrdinary (moduleNameOf stem category).toList where
  nonempty := by simp [moduleNameOf]
  noSlash := by
    intro member
    have inFile : '/' ∈ (fileNameOf stem category).toList := by
      rw [fileNameOf_eq, String.toList_append]
      exact List.mem_append_left _ member
    exact (isOrdinary_fileNameOf spelled).noSlash inFile
  notDot := by
    intro dot
    have last := congrArg List.getLast? dot
    cases category <;> simp [moduleNameOf, Category.text] at last
  notDotDot := by
    intro dots
    have last := congrArg List.getLast? dots
    cases category <;> simp [moduleNameOf, Category.text] at last

/-! ## Where files and modules are -/

theorem resolved_directoryPath (ordinary : IsOrdinaryDirectory (layout.directory category)) :
    (layout.directoryPath category).resolved =
      (Path.parts ⟨layout.directory category⟩).reverse ++ layout.root.resolved :=
  Path.resolved_join_of_isOrdinary ordinary.ordinary layout.root

/-- The parent of a file is the directory of its category, whichever way that is written. -/
theorem exists_parent?_of_filePath? {typeName : String} {file : Path}
    (valid : isValid typeName = true) (found : layout.filePath? typeName category = some file) :
    ∃ directory, file.parent? = some directory ∧
      directory.resolved = (layout.directoryPath category).resolved := by
  obtain ⟨stem, -, -, name, parts⟩ := exists_stem_of_filePath? valid found
  have notRoot : file.parts ≠ [['/']] := by
    intro root
    have last := congrArg List.getLast? (parts.symm.trans root)
    simp only [List.getLast?_concat, List.getLast?_singleton, Option.some.injEq] at last
    exact name.noSlash (by simp [last])
  obtain ⟨directory, parent⟩ :=
    Option.ne_none_iff_exists'.mp (Path.parent?_ne_none (by simp [parts]) notRoot)
  refine ⟨directory, parent, ?_⟩
  have own := Path.parts_parent? parent
  rw [parts, List.dropLast_concat] at own
  rw [Path.resolved, own, Path.resolved]

/-- The module of a file, below the directory that its category has. -/
theorem resolved_join_moduleNameOf {stem : String}
    (spelled : ∀ d ∈ stem.toList, isFilePart d = true) (directory : Path) :
    (directory.join (moduleNameOf stem category)).resolved =
      (moduleNameOf stem category).toList :: directory.resolved := by
  have name := isOrdinary_moduleNameOf spelled category
  have joined := Path.resolved_join name.head?_ne directory
  rwa [String.ofList_toList, Path.splitSlashes_of_not_mem name.noSlash, List.foldl_cons,
    List.foldl_nil, Path.follow_of_isOrdinary name] at joined

/-- The extension of a file can be taken away in one way only. -/
theorem importLeadsTo_join_iff {stem modulePath : String} {file directory : Path}
    (parent : file.parent? = some directory) (base : Path) :
    file.ImportLeadsTo modulePath (base.join (fileNameOf stem category)) ↔
      (directory.join modulePath).resolved =
        (base.join (moduleNameOf stem category)).resolved := by
  have bareText := Path.text_join_append (moduleNameOf_ne_empty stem category) ".ts" base
  rw [← fileNameOf_eq] at bareText
  constructor
  · rintro ⟨own, bare, ownParent, spelled, same⟩
    obtain rfl := Option.some.inj (parent.symm.trans ownParent)
    rw [bareText, String.append_left_inj] at spelled
    rw [same, show bare = base.join (moduleNameOf stem category) from congrArg Path.mk spelled.symm]
  · exact fun same => ⟨directory, _, parent, bareText, same⟩

/-! ## Where import paths lead -/

/-- An import path within one directory. -/
theorem resolved_join_dot {stem : String} (spelled : ∀ d ∈ stem.toList, isFilePart d = true)
    (directory : Path) :
    (directory.join ("./" ++ moduleNameOf stem category)).resolved =
      (moduleNameOf stem category).toList :: directory.resolved := by
  have name := isOrdinary_moduleNameOf spelled category
  have relative : ("./" ++ moduleNameOf stem category).toList.head? ≠ some '/' := by simp
  have joined := Path.resolved_join relative directory
  have cut : Path.splitSlashes ("./" ++ moduleNameOf stem category).toList =
      [['.'], (moduleNameOf stem category).toList] := by
    rw [show ("./" ++ moduleNameOf stem category).toList =
        ['.'] ++ '/' :: (moduleNameOf stem category).toList by simp,
      Path.splitSlashes_append, Path.splitSlashes_of_not_mem name.noSlash]
    rfl
  rwa [String.ofList_toList, cut, List.foldl_cons, List.foldl_cons, List.foldl_nil, Path.follow_dot,
    Path.follow_of_isOrdinary name] at joined

/-- An import path to another directory leaves the last name of the own one, and only that. -/
theorem resolved_join_dotDot {stem next : String}
    (spelled : ∀ d ∈ stem.toList, isFilePart d = true) (ordinary : IsOrdinaryDirectory next)
    {directory : Path} {last : List Char} {before : List (List Char)}
    (reached : directory.resolved = last :: before) (lastOrdinary : Path.IsOrdinary last) :
    (directory.join ("../" ++ next ++ "/" ++ moduleNameOf stem category)).resolved =
      (moduleNameOf stem category).toList :: ((Path.parts ⟨next⟩).reverse ++ before) := by
  have name := isOrdinary_moduleNameOf spelled category
  have relative : ("../" ++ next ++ "/" ++ moduleNameOf stem category).toList.head? ≠ some '/' := by
    simp
  have joined := Path.resolved_join relative directory
  have cut : Path.splitSlashes ("../" ++ next ++ "/" ++ moduleNameOf stem category).toList =
      ['.', '.'] :: (Path.splitSlashes next.toList ++ [(moduleNameOf stem category).toList]) := by
    rw [show ("../" ++ next ++ "/" ++ moduleNameOf stem category).toList =
        ['.', '.'] ++ '/' :: (next.toList ++ '/' :: (moduleNameOf stem category).toList) by simp,
      Path.splitSlashes_append, Path.splitSlashes_append,
      Path.splitSlashes_of_not_mem name.noSlash]
    rfl
  rwa [String.ofList_toList, cut, reached, List.foldl_cons, Path.follow_dotDot lastOrdinary,
    List.foldl_append, Path.foldl_follow_splitSlashes ordinary.ordinary, List.foldl_cons,
    List.foldl_nil, Path.follow_of_isOrdinary name] at joined

/-- The import path of a file leads to it from the same directory, and from a directory that is
right below the root, and from no other. -/
theorem importLeadsTo_of_filePath? {consumerName typeName path : String} {file target : Path}
    (ordinary : IsOrdinaryDirectory (layout.directory consumer))
    (ordinaryToo : IsOrdinaryDirectory (layout.directory dependency))
    (validConsumer : isValid consumerName = true) (valid : isValid typeName = true)
    (foundFile : layout.filePath? consumerName consumer = some file)
    (foundTarget : layout.filePath? typeName dependency = some target)
    (foundPath : layout.importPath? consumer typeName dependency = some path) :
    file.ImportLeadsTo path target ↔
      layout.directory consumer = layout.directory dependency ∨
        (Path.parts ⟨layout.directory consumer⟩).length = 1 := by
  obtain ⟨directory, parent, reached⟩ := exists_parent?_of_filePath? validConsumer foundFile
  obtain ⟨stem, cased, rfl⟩ := filePath?_eq_some_iff.mp foundTarget
  obtain ⟨other, otherCased, rfl⟩ := importPath?_eq_some_iff.mp foundPath
  obtain rfl := Except.ok.inj (cased.symm.trans otherCased)
  have spelled := Identifier.isFilePart_of_toFileCase valid cased
  rw [importLeadsTo_join_iff parent, resolved_join_moduleNameOf spelled,
    resolved_directoryPath ordinaryToo, importWay]
  rw [resolved_directoryPath ordinary] at reached
  split
  · rename_i same
    rw [resolved_join_dot spelled, reached, same]
    simp
  · rename_i apart
    cases way : (Path.parts ⟨layout.directory consumer⟩).reverse with
    | nil => exact absurd (List.reverse_eq_nil_iff.mp way) ordinary.nonempty
    | cons last before =>
        have lastOrdinary : Path.IsOrdinary last :=
          ordinary.ordinary last (List.mem_reverse.mp (by simp [way]))
        have length := congrArg List.length way
        rw [way, List.cons_append] at reached
        rw [resolved_join_dotDot spelled ordinaryToo reached lastOrdinary]
        rw [List.length_reverse, List.length_cons] at length
        simp [apart, length]

end Layout

end ApiBindings
