import ApiBindings.Proofs.FileTree.Effects
import ApiBindings.Proofs.Run.Sequence

/-!
# The order of writing

The texts of a plan may be written in any order.  If no path of the plan leads through a file of
another, what one model has written neither helps nor hinders the others: each has the outcome it
has on its own, and the files are the same in the end, also where some of them cannot be written.
-/

namespace ApiBindings

/-- A path that lies above another one, part by part. -/
def Path.IsAncestor (first second : Path) : Prop :=
  first.parts <+: second.parts ∧ first.parts ≠ second.parts

instance (first second : Path) : Decidable (first.IsAncestor second) :=
  inferInstanceAs (Decidable (_ ∧ _))

/-- A layout whose paths never turn back: the root does not, and the directories of the categories
are below it. -/
structure Layout.IsPlain (layout : Layout) : Prop where
  root : ['.', '.'] ∉ layout.root.parts
  directories : ∀ category, ∀ part ∈ Path.parts ⟨layout.directory category⟩, Path.IsOrdinary part

/-- The paths that the requests of a plan announce. -/
def Plan.outputs (plan : List Plan.Entry) : List Path :=
  plan.filterMap (·.request.toOption.map (·.path))

/-- Two trees with the same files and directories. -/
structure FileTree.Same (first second : FileTree) : Prop where
  workingDirectory : first.workingDirectory = second.workingDirectory
  find? : ∀ place, first.find? place = second.find? place

namespace Run

open FileTree (Writing)

variable {layout : Layout} {render : Request → Rendered} {tree later : FileTree}
  {entry first second : Plan.Entry} {plan : List Plan.Entry} {place : Location}

/-! ## Single entries -/

/-- What is written for an entry, if it has a request and there is a text for it. -/
def writing? (render : Request → Rendered) (entry : Plan.Entry) : Option Writing :=
  match entry.request with
  | .error _ => none
  | .ok request =>
      match render request, request.path.parent?, request.path.fileName? with
      | .ok text, some directory, some name => some ⟨request.path, directory, name, text⟩
      | _, _, _ => none

/-- What the work on an entry puts at a place. -/
def putBy (render : Request → Rendered) (tree : FileTree) (entry : Plan.Entry)
    (place : Location) : Option FileEntry :=
  (writing? render entry).bind (tree.put · place)

section Plain

variable (plain : layout.IsPlain) {id : ModelId} {request : Request}
  (announced : Plan.Announces layout id request)

include plain announced

theorem steps_of_announces : ∃ stem,
    request.path.steps = layout.root.steps ++ Path.parts ⟨layout.directory id.category⟩ ++
      [(Layout.fileNameOf stem id.category).toList] ∧
    request.path.parts = layout.root.parts ++ Path.parts ⟨layout.directory id.category⟩ ++
      [(Layout.fileNameOf stem id.category).toList] ∧
    request.path.isAbsolute = layout.root.isAbsolute := by
  obtain ⟨stem, spelled, ends, -⟩ := announced.endsIn
  have ordinary := plain.directories id.category
  have relative := Path.head?_ne_of_isOrdinary ordinary
  have name := ends.ordinary
  have relativeName := name.head?_ne
  have directory : Path.steps ⟨layout.directory id.category⟩ =
      Path.parts ⟨layout.directory id.category⟩ := by
    rw [Path.parts_eq_append_steps, Path.startOf_of_isOrdinary ordinary, List.nil_append]
  refine ⟨stem, ?_, ?_, ?_⟩
  · rw [spelled, Path.steps_join relativeName, Layout.directoryPath, Path.steps_join relative,
      directory, Path.steps_of_isOrdinary name]
  · have parts := Path.parts_join name (layout.directoryPath id.category)
    rw [String.ofList_toList, ← spelled] at parts
    rw [parts, Layout.directoryPath, Path.parts_join_of_isOrdinary ordinary]
  · rw [spelled, Path.isAbsolute_join relativeName, Layout.directoryPath,
      Path.isAbsolute_join relative]

/-- What is written for a request in a plain layout never turns back. -/
theorem isStraight_of_announces (text : String) {directory : Path} {name : List Char}
    (around : request.path.parent? = some directory)
    (fileName : request.path.fileName? = some name) :
    Writing.IsStraight ⟨request.path, directory, name, text⟩ := by
  obtain ⟨stem, spelled, ends, ownName⟩ := announced.endsIn
  obtain rfl := Option.some.inj (fileName.symm.trans ownName)
  obtain ⟨otherStem, steps, -, -⟩ := steps_of_announces plain announced
  refine ⟨ends, around, ?_⟩
  have before : directory.steps =
      layout.root.steps ++ Path.parts ⟨layout.directory id.category⟩ := by
    rw [Path.steps_parent? around, steps, List.dropLast_concat]
  intro step member
  refine ⟨Path.isIdle_of_mem_steps member, ?_⟩
  rintro rfl
  simp only [before, List.mem_append] at member
  rcases member with root | own
  · exact plain.root (by rw [Path.parts_eq_append_steps]; exact List.mem_append_right _ root)
  · exact (plain.directories id.category _ own).notDotDot rfl

end Plain

theorem exists_of_writing? {writing : Writing} (written : writing? render entry = some writing) :
    ∃ request, entry.request = .ok request ∧ render request = .ok writing.text ∧
      request.path = writing.path ∧ request.path.parent? = some writing.directory ∧
      request.path.fileName? = some writing.name := by
  rw [writing?] at written
  split at written
  · cases written
  · rename_i request kept
    split at written
    · rename_i text directory name rendered around fileName
      cases written
      exact ⟨request, kept, rendered, rfl, around, fileName⟩
    · cases written

/-- An entry that nothing is written for has one outcome on every tree. -/
theorem exists_of_writing?_eq_none (announced : Announced layout entry)
    (unwritten : writing? render entry = none) :
    ∃ outcome, ∀ tree, worked layout render entry tree = (outcome, tree) := by
  obtain ⟨id, error | request⟩ := entry
  · exact ⟨_, fun _ => worked_of_unbound⟩
  · cases rendered : render request with
    | error error => exact ⟨_, fun _ => worked_of_unrendered rendered⟩
    | ok text =>
        obtain ⟨stem, -, ends, fileName⟩ := (announced request rfl).endsIn
        obtain ⟨directory, around⟩ := ends.exists_parent?
        simp [writing?, rendered, around, fileName] at unwritten

section Work

variable (plain : layout.IsPlain) (announced : Announced layout entry)

include plain announced

/-- The work on an entry reports what is written for it, and puts that at its place. -/
theorem worked_of_writing? {writing : Writing} (sound : tree.IsSound)
    (written : writing? render entry = some writing) :
    writing.IsStraight ∧
      (worked layout render entry tree).1 =
        ⟨entry.id, (tree.report writing).mapError .emission⟩ ∧
      ∀ place, (worked layout render entry tree).2.find? place =
        (tree.put writing place).or (tree.find? place) := by
  obtain ⟨request, kept, rendered, path, around, fileName⟩ := exists_of_writing? written
  obtain ⟨id, own⟩ := entry
  obtain rfl : own = .ok request := kept
  have announces := announced request rfl
  have straight := isStraight_of_announces plain announces writing.text around fileName
  rw [path] at straight
  obtain ⟨reports, puts⟩ := FileTree.writtenInto_of_isStraight straight sound
  rw [worked_of_announced announces.path rendered, path, reports]
  exact ⟨straight, rfl, puts⟩

/-- The work on an entry puts what is written for it at its place, and nothing elsewhere. -/
theorem find?_worked (render : Request → Rendered) (sound : tree.IsSound) (place : Location) :
    (worked layout render entry tree).2.find? place =
      (putBy render tree entry place).or (tree.find? place) := by
  rw [putBy]
  cases written : writing? render entry with
  | none =>
      obtain ⟨outcome, same⟩ := exists_of_writing?_eq_none announced written
      rw [same]
      rfl
  | some writing => exact (worked_of_writing? plain announced sound written).2.2 place

end Work

/-! ## Several entries -/

/-- What is written for two entries is apart. -/
def Independent (render : Request → Rendered) (first second : Plan.Entry) : Prop :=
  ∀ writing other, writing? render first = some writing → writing? render second = some other →
    Writing.Apart writing other

theorem Independent.symm (independent : Independent render first second) :
    Independent render second first :=
  fun writing other written writtenToo => (independent other writing writtenToo written).symm

/-- What two independent entries put at one place is the same. -/
theorem Independent.put_unique (independent : Independent render first second)
    {entry other : FileEntry} (there : putBy render tree first place = some entry)
    (thereToo : putBy render tree second place = some other) : entry = other := by
  obtain ⟨writing, written, put⟩ := Option.bind_eq_some_iff.mp there
  obtain ⟨writingToo, writtenToo, putToo⟩ := Option.bind_eq_some_iff.mp thereToo
  exact (independent writing writingToo written writtenToo).put_unique put putToo

/-- What the work on several entries comes to if each entry is worked on as on the tree that they
started with. -/
structure Unhindered (layout : Layout) (render : Request → Rendered) (plan : List Plan.Entry)
    (tree : FileTree) (done : List Outcome × FileTree) : Prop where
  outcomes : done.1 = plan.map fun entry => (worked layout render entry tree).1
  workingDirectory : done.2.workingDirectory = tree.workingDirectory
  put : ∀ entry ∈ plan, ∀ place there, putBy render tree entry place = some there →
    done.2.find? place = some there
  kept : ∀ place, (∀ entry ∈ plan, putBy render tree entry place = none) →
    done.2.find? place = tree.find? place

/-- Whatever order entries are worked on in, what they come to on their own decides the files. -/
theorem Unhindered.same {order : List Plan.Entry} {done doneToo : List Outcome × FileTree}
    (unhindered : Unhindered layout render plan tree done)
    (unhinderedToo : Unhindered layout render order tree doneToo) (perm : order.Perm plan) :
    doneToo.2.Same done.2 where
  workingDirectory := by rw [unhindered.workingDirectory, unhinderedToo.workingDirectory]
  find? := by
    intro place
    by_cases put : ∃ entry ∈ plan, ∃ there, putBy render tree entry place = some there
    · obtain ⟨entry, member, there, put⟩ := put
      rw [unhindered.put entry member place there put,
        unhinderedToo.put entry (perm.mem_iff.mpr member) place there put]
    · have none : ∀ entry ∈ plan, putBy render tree entry place = none := by
        intro entry member
        cases there : putBy render tree entry place with
        | none => rfl
        | some other => exact absurd ⟨entry, member, other, there⟩ put
      rw [unhindered.kept place none,
        unhinderedToo.kept place fun entry member => none entry (perm.mem_iff.mp member)]

section Plans

variable (plain : layout.IsPlain)

include plain

/-- An entry is worked on after an independent one as before it. -/
theorem worked_of_independent (announced : Announced layout first)
    (announcedToo : Announced layout second) (sound : tree.IsSound)
    (independent : Independent render first second) :
    (worked layout render second (worked layout render first tree).2).1 =
        (worked layout render second tree).1 ∧
      putBy render (worked layout render first tree).2 second = putBy render tree second := by
  cases written : writing? render second with
  | none =>
      obtain ⟨outcome, same⟩ := exists_of_writing?_eq_none announcedToo written
      refine ⟨by rw [same, same], ?_⟩
      funext place
      simp [putBy, written]
  | some writing =>
      cases writtenFirst : writing? render first with
      | none =>
          obtain ⟨outcome, same⟩ := exists_of_writing?_eq_none announced writtenFirst
          rw [same]
          exact ⟨rfl, rfl⟩
      | some other =>
          have after := worked_of_writing? plain announced sound writtenFirst
          have alike := FileTree.alike_of_apart (independent other writing writtenFirst written)
            (grows_worked render announced tree).workingDirectory after.2.2
          have soundAfter := isSound_worked render announced sound
          rw [(worked_of_writing? plain announcedToo soundAfter written).2.1,
            (worked_of_writing? plain announcedToo sound written).2.1, alike.report_eq]
          refine ⟨rfl, ?_⟩
          funext place
          simp [putBy, written, alike.put_eq]

/-- Independent entries do not hinder one another. -/
theorem unhindered_workedAll (announced : ∀ entry ∈ plan, Announced layout entry)
    (independent : plan.Pairwise (Independent render)) (sound : tree.IsSound) :
    Unhindered layout render plan tree (workedAll layout render plan tree) := by
  induction plan generalizing tree with
  | nil => exact ⟨rfl, rfl, by simp, fun _ _ => rfl⟩
  | cons entry rest ih =>
      rw [List.forall_mem_cons] at announced
      rw [List.pairwise_cons] at independent
      have others := ih announced.2 independent.2
        (isSound_worked render announced.1 sound)
      have found := find?_worked plain announced.1 render sound
      have still : ∀ other ∈ rest, _ := fun other member =>
        worked_of_independent plain announced.1 (announced.2 other member) sound
          (independent.1 other member)
      rw [workedAll]
      exact {
        outcomes := by
          rw [others.outcomes, List.map_cons]
          exact congrArg _ (List.map_congr_left fun other member => (still other member).1)
        workingDirectory := by
          rw [others.workingDirectory, (grows_worked render announced.1 tree).workingDirectory]
        put := by
          intro other member place there put
          rcases List.mem_cons.mp member with rfl | later
          · have here := found place
            rw [put, Option.some_or] at here
            by_cases again : ∃ next ∈ rest, ∃ thereToo,
                putBy render (worked layout render other tree).2 next place = some thereToo
            · obtain ⟨next, member, thereToo, putToo⟩ := again
              have same := putToo
              rw [(still next member).2] at same
              rw [(independent.1 next member).put_unique put same]
              exact others.put next member place thereToo putToo
            · rw [others.kept place, here]
              intro next member
              cases putToo : putBy render (worked layout render other tree).2 next place with
              | none => rfl
              | some thereToo => exact absurd ⟨next, member, thereToo, putToo⟩ again
          · exact others.put other later place there (by rw [(still other later).2, put])
        kept := by
          intro place none
          rw [List.forall_mem_cons] at none
          rw [others.kept place, found place, none.1, Option.none_or]
          intro next member
          rw [(still next member).2, none.2 next member] }

end Plans

/-! ## The plan of a graph -/

section Graph

variable {context : Binding.Context} {graph : Source.Graph}

/-- In a plain layout, a path whose steps begin another one is above it or the same. -/
theorem not_isPrefix_of_announces (plain : layout.IsPlain) {id otherId : ModelId}
    {request other : Request} (announced : Plan.Announces layout id request)
    (announcedToo : Plan.Announces layout otherId other)
    (distinct : ¬ request.path.same other.path) (apart : ¬ request.path.IsAncestor other.path) :
    ¬ request.path.steps <+: other.path.steps := by
  obtain ⟨stem, steps, parts, -⟩ := steps_of_announces plain announced
  obtain ⟨otherStem, otherSteps, otherParts, -⟩ := steps_of_announces plain announcedToo
  intro beginning
  apply apart
  constructor
  · rw [steps, otherSteps, List.append_assoc, List.append_assoc,
      List.prefix_append_right_inj] at beginning
    rwa [parts, otherParts, List.append_assoc, List.append_assoc, List.prefix_append_right_inj]
  · intro same
    exact distinct (Path.same_iff.mpr same)

/-- What is written for two requests is apart if neither path is above the other. -/
theorem apart_of_announces (plain : layout.IsPlain) {id otherId : ModelId}
    {request other : Request} (announced : Plan.Announces layout id request)
    (announcedToo : Plan.Announces layout otherId other)
    (distinct : ¬ request.path.same other.path) (apart : ¬ request.path.IsAncestor other.path)
    (apartToo : ¬ other.path.IsAncestor request.path) {writing writingToo : Writing}
    (straight : writing.IsStraight) (straightToo : writingToo.IsStraight)
    (path : request.path = writing.path) (pathToo : other.path = writingToo.path) :
    Writing.Apart writing writingToo := by
  obtain ⟨-, -, -, absolute⟩ := steps_of_announces plain announced
  obtain ⟨-, -, -, absoluteToo⟩ := steps_of_announces plain announcedToo
  have steps : writing.steps = request.path.steps := by
    rw [path, straight.ends.steps_eq straight.around, Writing.steps]
  have stepsToo : writingToo.steps = other.path.steps := by
    rw [pathToo, straightToo.ends.steps_eq straightToo.around, Writing.steps]
  constructor
  · rw [Path.isAbsolute_parent? straight.around, Path.isAbsolute_parent? straightToo.around,
      ← path, ← pathToo, absolute, absoluteToo]
  · rw [steps, stepsToo]
    exact not_isPrefix_of_announces plain announced announcedToo distinct apart
  · rw [steps, stepsToo]
    apply not_isPrefix_of_announces plain announcedToo announced _ apartToo
    rwa [Path.same_iff, eq_comm, ← Path.same_iff]

theorem mem_outputs {request : Request} (member : entry ∈ plan)
    (kept : entry.request = .ok request) : request.path ∈ Plan.outputs plan := by
  rw [Plan.outputs, List.mem_filterMap]
  exact ⟨entry, member, by rw [kept]; rfl⟩

/-- Entries whose paths do not lead through each other's files are independent. -/
theorem pairwise_independent_ofGraph (render : Request → Rendered) (plain : context.layout.IsPlain)
    (apart : ∀ first ∈ Plan.outputs (Plan.ofGraph context graph),
      ∀ second ∈ Plan.outputs (Plan.ofGraph context graph), ¬ first.IsAncestor second) :
    (Plan.ofGraph context graph).Pairwise (Independent render) := by
  rw [List.pairwise_iff_getElem]
  intro index position inside insideLater later writing other written writtenToo
  obtain ⟨request, kept, -, path, around, fileName⟩ := exists_of_writing? written
  obtain ⟨requestToo, keptToo, -, pathToo, aroundToo, fileNameToo⟩ := exists_of_writing? writtenToo
  have member := List.getElem_mem inside
  have memberToo := List.getElem_mem insideLater
  have announced := Plan.announces_of_mem context member kept
  have announcedToo := Plan.announces_of_mem context memberToo keptToo
  have straight := isStraight_of_announces plain announced writing.text around fileName
  have straightToo := isStraight_of_announces plain announcedToo other.text aroundToo fileNameToo
  rw [path] at straight
  rw [pathToo] at straightToo
  exact apart_of_announces plain announced announcedToo
    (Plan.not_same_of_lt context later (List.getElem?_eq_getElem inside)
      (List.getElem?_eq_getElem insideLater) kept keptToo)
    (apart _ (mem_outputs member kept) _ (mem_outputs memberToo keptToo))
    (apart _ (mem_outputs memberToo keptToo) _ (mem_outputs member kept))
    straight straightToo path pathToo

/-- What the work on the entries of a plan comes to, whatever order they are worked on in. -/
structure AnyOrder (work : Plan.Entry → StateM FileTree Outcome) (plan order : List Plan.Entry)
    (tree : FileTree) : Prop where
  /-- Each entry has the outcome that it has on its own, in the order of the plan. -/
  declared : (StateT.run (m := Id) (plan.mapM work) tree).1 =
    plan.map fun entry => (StateT.run (m := Id) (work entry) tree).1
  /-- In the other order, each entry has the same outcome. -/
  ordered : (StateT.run (m := Id) (order.mapM work) tree).1 =
    order.map fun entry => (StateT.run (m := Id) (work entry) tree).1
  /-- The files are the same in the end. -/
  files : (StateT.run (m := Id) (order.mapM work) tree).2.Same
    (StateT.run (m := Id) (plan.mapM work) tree).2

/-- The models of a graph may be written in any order, if no path leads through the file of another
model. -/
theorem anyOrder_ofGraph (render : Request → Rendered) (tree : FileTree)
    (plain : context.layout.IsPlain) (sound : tree.IsSound)
    (apart : ∀ first ∈ Plan.outputs (Plan.ofGraph context graph),
      ∀ second ∈ Plan.outputs (Plan.ofGraph context graph), ¬ first.IsAncestor second)
    {order : List Plan.Entry} (perm : order.Perm (Plan.ofGraph context graph)) :
    AnyOrder (workOn context.layout fun request => pure (render request))
      (Plan.ofGraph context graph) order tree := by
  have announced := announced_ofGraph context graph
  have independent := pairwise_independent_ofGraph render plain apart
  have declared := unhindered_workedAll plain announced independent sound
  have ordered := unhindered_workedAll plain
    (fun entry member => announced entry (perm.mem_iff.mp member))
    ((perm.pairwise_iff fun both => both.symm).mpr independent) sound
  constructor
  · rw [run_mapM_workOn]
    exact declared.outcomes
  · rw [run_mapM_workOn]
    exact ordered.outcomes
  · rw [run_mapM_workOn, run_mapM_workOn]
    exact declared.same ordered perm

/-- A class and an enumeration with one directory, written in either order where a directory has
the place of the file for the class. -/
theorem anyOrder_ofGraph_occupied :
    let context : Binding.Context :=
      { layout := { root := ⟨"out"⟩, models := "all", enums := "all" } }
    let graph : Source.Graph := { classes := [{ name := "A" }], enums := [{ name := "B" }] }
    let tree : FileTree := { entries :=
      [(["out".toList], .directory), (["all".toList, "out".toList], .directory),
        (["a.model.ts".toList, "all".toList, "out".toList], .directory)] }
    let plan := Plan.ofGraph context graph
    Plan.outputs plan = [⟨"out/all/a.model.ts"⟩, ⟨"out/all/b.enum.ts"⟩] ∧
      AnyOrder (workOn context.layout fun request => pure (printed request)) plan plan.reverse
        tree := by
  intro context graph tree plan
  have outputs : Plan.outputs plan = [⟨"out/all/a.model.ts"⟩, ⟨"out/all/b.enum.ts"⟩] := by
    decide +kernel
  refine ⟨outputs,
    anyOrder_ofGraph printed tree ⟨by decide, ?_⟩ (by decide) ?_ (List.reverse_perm _)⟩
  · intro category
    cases category <;> decide
  · rw [outputs]
    decide

end Graph

end Run

end ApiBindings
