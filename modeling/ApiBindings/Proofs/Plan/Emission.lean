import ApiBindings.Proofs.FileTree.Frame
import ApiBindings.Proofs.Plan.Announcement

/-!
# What an emission does to a tree

The file for a model is written to a path that ends in a name, whatever the name of the model and
the directories of the layout are.  So there is always a directory around the file, and an emission
does no more to a tree than writing into that directory does: the file comes to its place and
directories on the way to it are added, or it is not written and directories are all that may have
been added.
-/

namespace ApiBindings.Plan

open Identifier (toFileCase)

/-! ## Paths of files -/

/-- The name of a file is ordinary behind its last slash, should the name of its type have one. -/
theorem exists_endsIn_fileNameOf (stem : String) (category : Category) :
    ∃ name, Path.EndsIn ⟨Layout.fileNameOf stem category⟩ name := by
  have plain : '/' ∉ '.' :: (category.text.toList ++ ['.', 't', 's']) := by
    cases category <;> decide
  obtain ⟨before, last, cut⟩ := Path.splitSlashes_append_of_not_mem plain stem.toList
  rw [← Layout.toList_fileNameOf] at cut
  have long : 4 ≤ (last ++ '.' :: (category.text.toList ++ ['.', 't', 's'])).length := by
    simp
    omega
  refine ⟨_, ⟨?_, ?_, ?_, ?_⟩, before, cut⟩
  · simp
  · exact Path.noSlash_of_mem_splitSlashes (by rw [cut]; simp)
  · intro dot
    simp [dot] at long
  · intro dots
    simp [dots] at long

theorem exists_endsIn_of_filePath? {layout : Layout} {id : ModelId} {path : Path}
    (found : layout.filePath? id.name id.category = some path) : ∃ name, path.EndsIn name := by
  obtain ⟨stem, -, rfl⟩ := Layout.filePath?_eq_some_iff.mp found
  obtain ⟨name, ends⟩ := exists_endsIn_fileNameOf stem id.category
  exact ⟨name, ends.join _⟩

/-! ## Emissions -/

/-- Where an emission stopped that failed, and what it reports of that. -/
inductive StopsAt (layout : Layout) (id : ModelId) (text : String) (tree after : FileTree) :
    EmitError → Prop where
  /-- Nothing is tried for a name without a file case. -/
  | layout {fault : NameError} (uncased : toFileCase id.name = .error fault)
      (untouched : after = tree) :
      StopsAt layout id text tree after
        ⟨layout.root, .refused (BindError.invalidReference id.name).message⟩
  /-- The directory around the file could not be created, and what was on the way stays. -/
  | directory {path directory : Path} {cause : FileError}
      (found : layout.filePath? id.name id.category = some path)
      (around : path.parent? = some directory)
      (failed : StateT.run (m := Id) (Files.ensureDirectories directory) tree =
        (.error cause, after))
      (absent : after.hasDirectory directory = false)
      (added : FileTree.Extends (tree.wayTo directory) tree after) :
      StopsAt layout id text tree after ⟨directory, cause⟩
  /-- The directory is there, and only the file could not be written. -/
  | file {path directory : Path} {cause : FileError}
      (found : layout.filePath? id.name id.category = some path)
      (around : path.parent? = some directory)
      (made : StateT.run (m := Id) (Files.ensureDirectories directory) tree = (.ok (), after))
      (there : ∀ place ∈ tree.wayTo directory, after.find? place = some .directory)
      (refused : after.writeFile path text.toUTF8 = .error cause)
      (added : FileTree.Extends (tree.wayTo directory) tree after) :
      StopsAt layout id text tree after ⟨path, cause⟩

/-- What an emission reports, and what it leaves of a tree. -/
structure Emits (layout : Layout) (id : ModelId) (text : String) (tree : FileTree) : Prop where
  written : ∀ path after, emitOn layout id text tree = (.ok path, after) →
    layout.filePath? id.name id.category = some path ∧
      ∃ directory place, tree.Writes after path directory place text.toUTF8
  stopped : ∀ error after, emitOn layout id text tree = (.error error, after) →
    StopsAt layout id text tree after error
  /-- A failed emission creates, removes and changes no file. -/
  files : ∀ error after, emitOn layout id text tree = (.error error, after) →
    ∀ place contents, after.find? place = some (.file contents) ↔
      tree.find? place = some (.file contents)

variable {layout : Layout} {id : ModelId} {text : String} {tree after : FileTree}

/-- The files are the same, wherever an emission stopped. -/
theorem StopsAt.find?_file_iff {error : EmitError} (stops : StopsAt layout id text tree after error)
    (place : Location) (contents : ByteArray) :
    after.find? place = some (.file contents) ↔ tree.find? place = some (.file contents) := by
  cases stops with
  | layout uncased untouched => rw [untouched]
  | directory found around failed absent added => exact added.find?_file_iff
  | file found around made there refused added => exact added.find?_file_iff

/-- An emission is refused for the name of the model, or it comes to writing into a directory. -/
theorem refused_or_written (layout : Layout) (id : ModelId) (text : String) (tree : FileTree) :
    (∃ fault, toFileCase id.name = .error fault ∧ emitOn layout id text tree =
        (.error ⟨layout.root, .refused (BindError.invalidReference id.name).message⟩, tree)) ∨
      ∃ path directory name, layout.filePath? id.name id.category = some path ∧
        path.EndsIn name ∧ path.parent? = some directory ∧
        emitOn layout id text tree = tree.writtenInto path text := by
  cases cased : toFileCase id.name with
  | error fault =>
      refine .inl ⟨fault, rfl, ?_⟩
      have none : layout.filePath? id.name id.category = none := by
        rw [Layout.filePath?, Layout.fileName_eq, cased]
        rfl
      rw [emitOn, Layout.emit, none]
      rfl
  | ok stem =>
      have found : layout.filePath? id.name id.category =
          some ((layout.directoryPath id.category).join (Layout.fileNameOf stem id.category)) :=
        Layout.filePath?_eq_some_iff.mpr ⟨stem, cased, rfl⟩
      obtain ⟨name, ends⟩ := exists_endsIn_of_filePath? found
      obtain ⟨directory, around⟩ := ends.exists_parent?
      exact .inr ⟨_, directory, name, found, ends, around, emitOn_eq_writtenInto found text tree⟩

theorem writes_of_emitOn {path : Path} (emitted : emitOn layout id text tree = (.ok path, after)) :
    layout.filePath? id.name id.category = some path ∧
      ∃ directory place, tree.Writes after path directory place text.toUTF8 := by
  obtain ⟨fault, -, refused⟩ | ⟨path, directory, name, found, ends, around, written⟩ :=
    refused_or_written layout id text tree
  · rw [refused] at emitted
    cases emitted
  · rw [written] at emitted
    obtain ⟨rfl, place, writes⟩ := FileTree.writes_of_writtenInto ends around emitted
    exact ⟨found, directory, place, writes⟩

theorem stopsAt_of_emitOn {error : EmitError}
    (failed : emitOn layout id text tree = (.error error, after)) :
    StopsAt layout id text tree after error := by
  obtain ⟨fault, uncased, refused⟩ | ⟨path, directory, name, found, -, around, written⟩ :=
    refused_or_written layout id text tree
  · rw [refused] at failed
    cases failed
    exact .layout uncased rfl
  · rw [written] at failed
    have tidy := Path.isTidy_parent? around
    have run := FileTree.run_ensureDirectories tidy tree
    obtain ⟨stopped, cause⟩ := error
    obtain ⟨added, ⟨rfl, made⟩ | ⟨rfl, made, refused⟩⟩ :=
      FileTree.stops_of_writtenInto around failed
    · exact .directory found around (run.trans made)
        (FileTree.hasDirectory_of_ensured_error tidy made) added
    · exact .file found around (run.trans made) (FileTree.find?_of_ensured made) refused added

/-- An emission writes the one file that the layout has for the model, or leaves all files as they
are; and in both cases it adds no directories but those on the way to that file. -/
theorem emitOn_emits (layout : Layout) (id : ModelId) (text : String) (tree : FileTree) :
    Emits layout id text tree where
  written := fun _ _ emitted => writes_of_emitOn emitted
  stopped := fun _ _ failed => stopsAt_of_emitOn failed
  files := fun _ _ failed => (stopsAt_of_emitOn failed).find?_file_iff

end ApiBindings.Plan
