import ApiBindings.Proofs.FileTree.Reading
import ApiBindings.Proofs.Layout.FilePath
import ApiBindings.Run

/-!
# Graph files

A graph is loaded from a file whose name has the extension of such files.  No generated file has
it, so that the file of a graph is left as it is whatever is generated.
-/

namespace ApiBindings

open FileTree (Grows)

namespace Path

/-- The extension of a name that ends with a dot and a text without one. -/
theorem extensionOf?_append {stem extension : List Char} (some : stem ≠ [])
    (plain : '.' ∉ extension) : extensionOf? (stem ++ '.' :: extension) = .some extension := by
  have reversed : (stem ++ '.' :: extension).reverse =
      extension.reverse ++ '.' :: stem.reverse := by
    simp
  have taken : (stem ++ '.' :: extension).reverse.takeWhile (· != '.') = extension.reverse := by
    rw [reversed, List.takeWhile_append_of_pos]
    · simp
    · intro c member
      have apart : c ≠ '.' := by
        rintro rfl
        exact plain (List.mem_reverse.mp member)
      simpa using apart
  have length : (stem ++ '.' :: extension).length - extension.length - 1 = stem.length := by
    rw [List.length_append, List.length_cons]
    omega
  have front : (stem ++ '.' :: extension).take
      ((stem ++ '.' :: extension).length - extension.length - 1) = stem := by
    rw [length, List.take_left']
    rfl
  have longer : (extension.length == (stem ++ '.' :: extension).length) = false := by
    simp +arith
  have nonempty : stem.isEmpty = false := by simpa using some
  simp only [extensionOf?, taken, List.reverse_reverse, front, longer, nonempty, Bool.or_self,
    Bool.false_eq_true, if_false]

end Path

namespace FileTree

variable {tree later : FileTree} {path : Path}

/-- What is read at a path is the contents of a file of its name. -/
theorem exists_of_readFile {contents : ByteArray} (read : tree.readFile path = .ok contents) :
    ∃ around name, tree.target path = .ok (.named around name false) ∧
      tree.find? (name :: around) = some (.file contents) := by
  obtain ⟨entry, found, last⟩ := Except.bind_eq_ok_iff.mp read
  cases entry with
  | directory => cases last
  | file held =>
      cases last
      obtain ⟨target, reached, status⟩ := Except.bind_eq_ok_iff.mp found
      cases target with
      | directory place => cases status
      | named around name slash =>
          refine ⟨around, name, ?_⟩
          cases there : tree.find? (name :: around) with
          | none => simp [there, throw, throwThe, MonadExceptOf.throw] at status
          | some entry =>
              cases entry with
              | directory => simp [there, pure, Except.pure] at status
              | file own =>
                  cases slash with
                  | true => simp [there, throw, throwThe, MonadExceptOf.throw] at status
                  | false =>
                      simp only [there, Bool.false_eq_true, if_false, pure, Except.pure,
                        Except.ok.injEq, FileEntry.file.injEq] at status
                      rw [reached, status]
                      exact ⟨rfl, rfl⟩

/-- A file is read as before in a grown tree, unless files of its name may have changed. -/
theorem readFile_of_grows {changed : Location → Prop} {contents : ByteArray}
    (read : tree.readFile path = .ok contents) (grows : Grows changed tree later)
    (kept : ∀ place, place.head? = path.fileName? → ¬ changed place) :
    later.readFile path = .ok contents := by
  obtain ⟨around, name, reached, found⟩ := exists_of_readFile read
  have same : later.target path = .ok (.named around name false) := by
    rw [grows.target_eq (by simp [reached]), reached]
  have foundLater := grows.file_of_not_changed found
    (kept (name :: around) (fileName?_of_target reached).symm)
  simp [readFile, status, same, foundLater, bind, Except.bind, pure, Except.pure]

end FileTree

/-! ## Graphs -/

namespace Source

/-- The graph in the file at a path of a tree. -/
def Graph.loaded (tree : FileTree) (path : Path) : Except LoadError Graph :=
  if supportedExtensions.contains (extensionText path) then
    match tree.readText path with
    | .error cause => .error (.unreadable path cause)
    | .ok text =>
        match Graph.parse? text with
        | some graph => .ok graph
        | none => .error (.malformed path)
  else .error (.unsupportedExtension (extensionText path))

/-- Loading a graph at a site leaves the site as it is. -/
theorem Graph.run_load {σ : Type} (path : Path) (site : Run.Site σ) :
    StateT.run (m := Id) (Graph.load path) site = (Graph.loaded site.files path, site) := by
  have text : StateT.run (m := Id) (MonadFiles.readText path) site =
      (site.files.readText path, site) := rfl
  rw [Graph.load, Graph.loaded]
  split
  · rw [FileTree.run_bind, text]
    rcases site.files.readText path with cause | content
    · rfl
    · cases parsed : Graph.parse? content <;> simp only [parsed] <;> rfl
  · rfl

variable {tree later : FileTree} {path : Path} {graph : Graph}
  (loaded : Graph.loaded tree path = .ok graph)

include loaded

/-- What has to do with the loading of a graph. -/
theorem Graph.exists_of_loaded :
    path.extension? = some "json" ∧
      ∃ text, tree.readText path = .ok text ∧ Graph.parse? text = some graph := by
  rw [Graph.loaded] at loaded
  split at loaded
  · rename_i supported
    constructor
    · rw [extensionText] at supported
      cases extension : path.extension? with
      | none => simp [extension, supportedExtensions] at supported
      | some text =>
          simp only [extension, supportedExtensions, List.contains_eq_mem, List.mem_singleton,
            decide_eq_true_eq] at supported
          have same : "." ++ text = "." ++ "json" := supported
          rw [String.append_right_inj] at same
          rw [same]
    · split at loaded
      · cases loaded
      · rename_i text read
        split at loaded
        · rename_i parsed
          cases loaded
          exact ⟨text, read, parsed⟩
        · cases loaded
  · cases loaded

/-- A graph is loaded again from a grown tree, unless files of its name may have changed. -/
theorem Graph.loaded_of_grows {changed : Location → Prop} (grows : Grows changed tree later)
    (kept : ∀ place, place.head? = path.fileName? → ¬ changed place) :
    Graph.loaded later path = .ok graph := by
  have same : later.readText path = tree.readText path := by
    obtain ⟨-, text, read, -⟩ := exists_of_loaded loaded
    obtain ⟨contents, bytes, -⟩ := Except.bind_eq_ok_iff.mp read
    rw [FileTree.readText, FileTree.readText, bytes, FileTree.readFile_of_grows bytes grows kept]
  rw [Graph.loaded] at loaded ⊢
  rwa [same]

end Source

namespace Layout

/-- No generated file has the extension of a graph file. -/
theorem extensionOf?_fileNameOf (stem : String) (category : Category) :
    Path.extensionOf? (fileNameOf stem category).toList = some ['t', 's'] := by
  have split : (fileNameOf stem category).toList =
      (stem.toList ++ '.' :: category.text.toList) ++ '.' :: ['t', 's'] := by
    simp [fileNameOf]
  rw [split, Path.extensionOf?_append (by simp) (by decide)]

end Layout

end ApiBindings
