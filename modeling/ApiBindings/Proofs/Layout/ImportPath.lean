import ApiBindings.Layout
import ApiBindings.Proofs.Fallible

/-!
# Paths of imports

The module path of a generated file is relative and ends in the category of the file.  It is
therefore never the name of a package, and it tells apart files of different categories.
-/

namespace ApiBindings.Layout

open Identifier (toFileCase)

variable {layout : Layout} {consumer dependency : Category} {typeName path : String}

/-- The name of a module, from the file case of its type. -/
def moduleNameOf (stem : String) (category : Category) : String :=
  stem ++ "." ++ category.text

/-- The way from the directory of one category to that of another, as import paths have it. -/
def importWay (layout : Layout) (consumer dependency : Category) : String :=
  if layout.directory consumer = layout.directory dependency then "./"
  else "../" ++ layout.directory dependency ++ "/"

theorem moduleName_eq (typeName : String) (category : Category) :
    moduleName typeName category = (toFileCase typeName).map (moduleNameOf · category) := by
  cases cased : toFileCase typeName <;> simp [moduleName, moduleNameOf, cased] <;> rfl

/-- An import path is the way to a directory and the name of a module. -/
theorem importPath?_eq_some_iff :
    layout.importPath? consumer typeName dependency = some path ↔
      ∃ stem, toFileCase typeName = .ok stem ∧
        path = layout.importWay consumer dependency ++ moduleNameOf stem dependency := by
  cases cased : toFileCase typeName with
  | error error => simp [importPath?, moduleName_eq, cased, Except.map]
  | ok stem =>
      simp only [importPath?, moduleName_eq, cased, Except.map, beq_iff_eq, Except.ok.injEq,
        exists_eq_left', importWay]
      split <;> simp [eq_comm]

theorem head?_importWay (layout : Layout) (consumer dependency : Category) :
    (layout.importWay consumer dependency).toList.head? = some '.' := by
  rw [importWay]
  split <;> simp

/-- An import path starts with a dot, which the name of a package does not. -/
theorem head?_of_importPath? (found : layout.importPath? consumer typeName dependency = some path) :
    path.toList.head? = some '.' := by
  obtain ⟨stem, -, rfl⟩ := importPath?_eq_some_iff.mp found
  rw [String.toList_append, List.head?_append, head?_importWay, Option.some_or]

/-- The categories of files are told apart by the last letters of their import paths. -/
theorem category_of_importPath? {otherConsumer other : Category} {otherName : String}
    (found : layout.importPath? consumer typeName dependency = some path)
    (foundOther : layout.importPath? otherConsumer otherName other = some path) :
    dependency = other := by
  obtain ⟨stem, -, spelled⟩ := importPath?_eq_some_iff.mp found
  obtain ⟨otherStem, -, otherSpelled⟩ := importPath?_eq_some_iff.mp foundOther
  have last := congrArg (fun text => text.toList.getLast?) (spelled.symm.trans otherSpelled)
  cases dependency <;> cases other <;> first | rfl | simp [moduleNameOf, Category.text] at last

end ApiBindings.Layout
