import ApiBindings.Plan
import ApiBindings.Proofs.Path.Parts
import Mathlib.Logic.ExistsUnique

/-!
# Ownership of generated files

What a plan makes of several models, compared with what each of them is on its own.  A file belongs
to the first model whose own request is for it; the models after that one are refused with its name.
The owners that are passed along while a plan is made record exactly these first claims.
-/

namespace ApiBindings.Plan

variable (context : Binding.Context)

/-- A model claims a path if its request, made for it alone, is for the same path. -/
def Claims (model : Source.Model) (path : Path) : Prop :=
  ∃ request, Request.ofModel context model = .ok request ∧ request.path.same path

/-- Whether a model claims a path. -/
def claims (model : Source.Model) (path : Path) : Bool :=
  match Request.ofModel context model with
  | .ok request => request.path.same path
  | .error _ => false

@[simp] theorem claims_iff {model : Source.Model} {path : Path} :
    claims context model path = true ↔ Claims context model path := by
  cases own : Request.ofModel context model with
  | error error => simp [claims, Claims, own]
  | ok request => simp [claims, Claims, own]

@[simp] theorem claims_eq_false_iff {model : Source.Model} {path : Path} :
    claims context model path = false ↔ ¬ Claims context model path := by
  rw [← claims_iff, Bool.not_eq_true]

/-- The first of several models that claims a path. -/
def claimant? (models : List Source.Model) (path : Path) : Option Source.Model :=
  models.find? (claims context · path)

/-- The entry of a model that comes after others. -/
def entryAfter (earlier : List Source.Model) (model : Source.Model) : Entry :=
  { id := .ofModel model
    request :=
      match Request.ofModel context model with
      | .error error => .error error
      | .ok request =>
          match claimant? context earlier request.path with
          | some owner => .error (.outputTaken request.path owner.name)
          | none => .ok request }

/-- The owners once several models have had their turn. -/
def ownersAfter (owners : Owners) (models : List Source.Model) : Owners :=
  models.foldl
    (fun owners model => (claim owners (.ofModel model) (Request.ofModel context model)).2) owners

theorem ownersAfter_concat (owners : Owners) (models : List Source.Model) (model : Source.Model) :
    ownersAfter context owners (models ++ [model]) =
      (claim (ownersAfter context owners models) (.ofModel model)
        (Request.ofModel context model)).2 := by
  simp [ownersAfter]

/-! ## What the owners record -/

theorem ofModel_name (model : Source.Model) : (ModelId.ofModel model).name = model.name := by
  cases model <;> rfl

/-- Whether a path is claimed does not depend on how it is written. -/
theorem Claims.congr {model : Source.Model} {first second : Path}
    (claimed : Claims context model first) (same : first.same second) :
    Claims context model second := by
  obtain ⟨request, own, forFirst⟩ := claimed
  refine ⟨request, own, ?_⟩
  rw [Path.same_iff] at *
  exact forFirst.trans same

theorem claimant?_eq_none_iff {models : List Source.Model} {path : Path} :
    claimant? context models path = none ↔ ∀ model ∈ models, ¬ Claims context model path := by
  simp [claimant?, List.find?_eq_none]

theorem claimant?_eq_some_iff {models : List Source.Model} {path : Path} {owner : Source.Model} :
    claimant? context models path = some owner ↔
      Claims context owner path ∧ ∃ first rest, models = first ++ owner :: rest ∧
        ∀ model ∈ first, ¬ Claims context model path := by
  simp only [claimant?, List.find?_eq_some_iff_append, claims_iff, Bool.not_eq_eq_eq_not,
    Bool.not_true, claims_eq_false_iff]

theorem find?_append (owners : Owners) (path : Path) (name : String) (query : Path) :
    Owners.find? (owners ++ [(path, name)]) query =
      (owners.find? query).or (if path.same query then some name else none) := by
  simp only [Owners.find?, List.find?_append, List.find?_cons, List.find?_nil]
  cases List.find? (fun owner => owner.1.same query) owners with
  | some owner => rfl
  | none => cases path.same query <;> rfl

/-- Owners that record the first claims of some models do so for one model more. -/
theorem find?_claim (owners : Owners) (model : Source.Model) (path : Path) :
    (claim owners (.ofModel model) (Request.ofModel context model)).2.find? path =
      (owners.find? path).or ((claimant? context [model] path).map (·.name)) := by
  cases own : Request.ofModel context model with
  | error error => simp [claim, claimant?, claims, own]
  | ok request =>
      cases taken : owners.find? request.path with
      | none =>
          simp only [claim, taken, find?_append, ofModel_name, claimant?]
          cases same : request.path.same path <;> simp [same, claims, own]
      | some owner =>
          simp only [claim, taken, claimant?]
          cases same : request.path.same path with
          | false => simp [claims, own, same]
          | true =>
              have agree : Owners.find? owners path = Owners.find? owners request.path := by
                have parts := Path.same_iff.mp same
                simp only [Owners.find?, Path.same, parts]
              simp [agree, taken]

/-- The owners after several models: those before them, then the first claim among the models. -/
theorem find?_ownersAfter (owners : Owners) (models : List Source.Model) (path : Path) :
    (ownersAfter context owners models).find? path =
      (owners.find? path).or ((claimant? context models path).map (·.name)) := by
  induction models generalizing owners with
  | nil => simp [ownersAfter, claimant?]
  | cons model rest ih =>
      have step := ih (claim owners (.ofModel model) (Request.ofModel context model)).2
      rw [find?_claim, Option.or_assoc] at step
      rw [ownersAfter, List.foldl_cons, ← ownersAfter, step]
      congr 1
      cases first : claims context model path <;> simp [claimant?, first]

/-! ## Entries one by one -/

theorem entries_append (owners : Owners) (first second : List Source.Model) :
    entries context owners (first ++ second) =
      entries context owners first ++
        entries context (ownersAfter context owners first) second := by
  induction first generalizing owners with
  | nil => rfl
  | cons model rest ih => simp [entries, ownersAfter, ih]

/-- A model that fails on its own takes no file. -/
theorem entries_cons_of_error {model : Source.Model} {error : BindError}
    (failed : Request.ofModel context model = .error error) (owners : Owners)
    (rest : List Source.Model) :
    entries context owners (model :: rest) =
      ⟨.ofModel model, .error error⟩ :: entries context owners rest := by
  simp [entries, claim, failed]

theorem claim_ownersAfter (earlier : List Source.Model) (model : Source.Model) :
    (claim (ownersAfter context [] earlier) (.ofModel model) (Request.ofModel context model)).1 =
      entryAfter context earlier model := by
  cases own : Request.ofModel context model with
  | error error => simp [claim, entryAfter, own]
  | ok request =>
      have owner : (ownersAfter context [] earlier).find? request.path =
          (claimant? context earlier request.path).map (·.name) := by
        rw [find?_ownersAfter]
        rfl
      cases first : claimant? context earlier request.path <;>
        simp [claim, entryAfter, own, owner, first]

/-- With the models before it known, the entry of a model depends on nothing else. -/
theorem entries_eq_mapIdx (earlier models : List Source.Model) :
    entries context (ownersAfter context [] earlier) models =
      models.mapIdx fun index model => entryAfter context (earlier ++ models.take index) model := by
  induction models generalizing earlier with
  | nil => rfl
  | cons model rest ih =>
      have step := ih (earlier ++ [model])
      simp only [ownersAfter_concat, List.append_assoc, List.singleton_append] at step
      simp only [entries, step, claim_ownersAfter, List.mapIdx_cons, List.take_zero,
        List.append_nil, List.take_succ_cons]

theorem ofGraph_eq_mapIdx (graph : Source.Graph) :
    ofGraph context graph =
      graph.models.mapIdx fun index model =>
        entryAfter context (graph.models.take index) model := by
  exact entries_eq_mapIdx context [] graph.models

theorem ofGraph_getElem? (graph : Source.Graph) (index : Nat) :
    (ofGraph context graph)[index]? =
      graph.models[index]?.map (entryAfter context (graph.models.take index)) := by
  rw [ofGraph_eq_mapIdx, List.getElem?_mapIdx]

/-! ## The entry of one model -/

theorem entryAfter_request_of_free {earlier : List Source.Model} {model : Source.Model}
    (free : ∀ request, Request.ofModel context model = .ok request →
      ∀ other ∈ earlier, ¬ Claims context other request.path) :
    (entryAfter context earlier model).request = Request.ofModel context model := by
  cases own : Request.ofModel context model with
  | error error => simp [entryAfter, own]
  | ok request =>
      have unclaimed := (claimant?_eq_none_iff context).mpr (free request own)
      simp [entryAfter, own, unclaimed]

theorem entryAfter_request_of_claimed {first rest : List Source.Model} {owner model : Source.Model}
    {request : Request} (own : Request.ofModel context model = .ok request)
    (claimed : Claims context owner request.path)
    (unclaimed : ∀ other ∈ first, ¬ Claims context other request.path) :
    (entryAfter context (first ++ owner :: rest) model).request =
      .error (.outputTaken request.path owner.name) := by
  have found : claimant? context (first ++ owner :: rest) request.path = some owner :=
    (claimant?_eq_some_iff context).mpr ⟨claimed, first, rest, rfl, unclaimed⟩
  simp [entryAfter, own, found]

/-- A model keeps its request exactly if no model before it claims the path. -/
theorem entryAfter_request_eq_ok_iff {earlier : List Source.Model} {model : Source.Model}
    {request : Request} :
    (entryAfter context earlier model).request = .ok request ↔
      Request.ofModel context model = .ok request ∧
        ∀ other ∈ earlier, ¬ Claims context other request.path := by
  cases own : Request.ofModel context model with
  | error error => simp [entryAfter, own]
  | ok other =>
      cases first : claimant? context earlier other.path with
      | none =>
          have free := (claimant?_eq_none_iff context).mp first
          constructor
          · intro kept
            simp only [entryAfter, own, first, Except.ok.injEq] at kept
            subst kept
            exact ⟨rfl, free⟩
          · rintro ⟨same, -⟩
            simpa [entryAfter, own, first] using same
      | some owner =>
          obtain ⟨claimed, before, rest, split, -⟩ := (claimant?_eq_some_iff context).mp first
          constructor
          · intro kept
            simp [entryAfter, own, first] at kept
          · rintro ⟨same, free⟩
            cases same
            exact absurd claimed (free owner (by simp [split]))

/-- What stands behind an entry with a request: its model, which claims the path first. -/
theorem ofGraph_ok {graph : Source.Graph} {index : Nat} {entry : Entry} {request : Request}
    (listed : (ofGraph context graph)[index]? = some entry) (kept : entry.request = .ok request) :
    ∃ model, graph.models[index]? = some model ∧ entry.id = .ofModel model ∧
      Request.ofModel context model = .ok request ∧
      ∀ other ∈ graph.models.take index, ¬ Claims context other request.path := by
  rw [ofGraph_getElem?, Option.map_eq_some_iff] at listed
  obtain ⟨model, found, rfl⟩ := listed
  obtain ⟨own, free⟩ := (entryAfter_request_eq_ok_iff context).mp kept
  exact ⟨model, found, rfl, own, free⟩

/-! ## The plan as a whole -/

/-- What a plan is, in terms of what each model of its graph is on its own. -/
structure Isolates (graph : Source.Graph) (plan : List Entry) : Prop where
  /-- One entry for each model: classes, then enumerations, then services. -/
  ids : plan.map (·.id) =
    graph.classes.map (⟨·.name, .model⟩) ++ graph.enums.map (⟨·.name, .enum⟩) ++
      graph.services.map (⟨·.name, .service⟩)
  /-- A model has what it has on its own, unless a model before it claims the path. -/
  free : ∀ index model entry, graph.models[index]? = some model → plan[index]? = some entry →
    (∀ request, Request.ofModel context model = .ok request →
      ∀ other ∈ graph.models.take index, ¬ Claims context other request.path) →
    entry.request = Request.ofModel context model
  /-- Otherwise it is refused with the name of the first model that claims the path. -/
  taken : ∀ index position model owner entry request,
    graph.models[index]? = some model → plan[index]? = some entry →
    Request.ofModel context model = .ok request →
    position < index → graph.models[position]? = some owner → Claims context owner request.path →
    (∀ other ∈ graph.models.take position, ¬ Claims context other request.path) →
    entry.request = .error (.outputTaken request.path owner.name)
  /-- Two requests of a plan are for different paths. -/
  distinct : plan.Pairwise fun first second => ∀ request other,
    first.request = .ok request → second.request = .ok other → ¬ request.path.same other.path
  /-- Of the entries, exactly one has the path that some model claims. -/
  owned : ∀ model ∈ graph.models, ∀ path, Claims context model path →
    ∃! index : Nat, ∃ (entry : Entry) (request : Request),
      plan[index]? = some entry ∧ entry.request = .ok request ∧ request.path.same path
  /-- Without a model that fails on its own, the other entries stay as they are. -/
  unaffected : ∀ before model after error (rest : Source.Graph),
    graph.models = before ++ model :: after → Request.ofModel context model = .error error →
    rest.models = before ++ after →
    ∃ first last, ofGraph context rest = first ++ last ∧ first.length = before.length ∧
      plan = first ++ ⟨.ofModel model, .error error⟩ :: last

theorem length_entries (owners : Owners) (models : List Source.Model) :
    (entries context owners models).length = models.length := by
  induction models generalizing owners with
  | nil => rfl
  | cons model rest ih => simp [entries, ih]

/-- A plan has one entry for each model, in the order of the models. -/
theorem ofGraph_map_id (graph : Source.Graph) :
    (ofGraph context graph).map (·.id) = graph.models.map ModelId.ofModel := by
  apply List.ext_getElem?
  intro index
  cases found : graph.models[index]? <;> simp [ofGraph_getElem?, found, entryAfter]

theorem ofGraph_ids (graph : Source.Graph) :
    (ofGraph context graph).map (·.id) =
      graph.classes.map (⟨·.name, .model⟩) ++ graph.enums.map (⟨·.name, .enum⟩) ++
        graph.services.map (⟨·.name, .service⟩) := by
  rw [ofGraph_map_id]
  simp [Source.Graph.models, ModelId.ofModel, Function.comp_def]

theorem not_same_of_lt {graph : Source.Graph} {index position : Nat} {first second : Entry}
    {request other : Request} (later : index < position)
    (listed : (ofGraph context graph)[index]? = some first)
    (listedLater : (ofGraph context graph)[position]? = some second)
    (kept : first.request = .ok request) (keptLater : second.request = .ok other) :
    ¬ request.path.same other.path := by
  intro same
  obtain ⟨model, found, -, own, -⟩ := ofGraph_ok context listed kept
  obtain ⟨-, -, -, -, free⟩ := ofGraph_ok context listedLater keptLater
  refine free model ?_ ⟨request, own, same⟩
  exact List.mem_of_getElem? ((List.getElem?_take_of_lt later).trans found)

/-- The owner of a path that some model claims is the first model that claims it. -/
theorem exists_owner {graph : Source.Graph} {model : Source.Model} {path : Path}
    (member : model ∈ graph.models) (claimed : Claims context model path) :
    ∃ (index : Nat) (entry : Entry) (request : Request),
      (ofGraph context graph)[index]? = some entry ∧ entry.request = .ok request ∧
        request.path.same path := by
  have some : claimant? context graph.models path ≠ none := by
    intro none
    exact (claimant?_eq_none_iff context).mp none model member claimed
  obtain ⟨owner, first⟩ := Option.ne_none_iff_exists'.mp some
  obtain ⟨⟨request, own, same⟩, before, rest, split, unclaimed⟩ :=
    (claimant?_eq_some_iff context).mp first
  have free : ∀ other ∈ before, ¬ Claims context other request.path := by
    intro other earlier claim
    exact unclaimed other earlier (claim.congr context same)
  refine ⟨before.length, entryAfter context before owner, request, ?_, ?_, same⟩
  · simp [ofGraph_getElem?, split]
  · exact (entryAfter_request_eq_ok_iff context).mpr ⟨own, free⟩

theorem ofGraph_isolates (graph : Source.Graph) :
    Isolates context graph (ofGraph context graph) where
  ids := ofGraph_ids context graph
  free := by
    intro index model entry found listed unclaimed
    rw [ofGraph_getElem?, found, Option.map_some, Option.some.injEq] at listed
    subst listed
    exact entryAfter_request_of_free context unclaimed
  taken := by
    intro index position model owner entry request found listed own later foundOwner claimed
      unclaimed
    rw [ofGraph_getElem?, found, Option.map_some, Option.some.injEq] at listed
    subst listed
    have inside : (graph.models.take index)[position]? = some owner := by
      rw [List.getElem?_take_of_lt later, foundOwner]
    obtain ⟨bound, same⟩ := List.getElem?_eq_some_iff.mp inside
    have split := List.take_append_drop position (graph.models.take index)
    rw [List.drop_eq_getElem_cons bound, same, List.take_take,
      Nat.min_eq_left (Nat.le_of_lt later)] at split
    rw [← split]
    exact entryAfter_request_of_claimed context own claimed unclaimed
  distinct := by
    rw [List.pairwise_iff_getElem]
    intro index position inside insideLater later request other kept keptLater
    exact not_same_of_lt context later (List.getElem?_eq_getElem inside)
      (List.getElem?_eq_getElem insideLater) kept keptLater
  owned := by
    intro model member path claimed
    obtain ⟨index, entry, request, listed, kept, same⟩ := exists_owner context member claimed
    refine ⟨index, ⟨entry, request, listed, kept, same⟩, ?_⟩
    rintro position ⟨other, otherRequest, otherListed, otherKept, otherSame⟩
    rw [Path.same_iff] at same otherSame
    rcases Nat.lt_trichotomy position index with before | equal | after
    · exact absurd (Path.same_iff.mpr (otherSame.trans same.symm))
        (not_same_of_lt context before otherListed listed otherKept kept)
    · exact equal
    · exact absurd (Path.same_iff.mpr (same.trans otherSame.symm))
        (not_same_of_lt context after listed otherListed kept otherKept)
  unaffected := by
    intro before model after error rest split failed others
    refine ⟨entries context [] before,
      entries context (ownersAfter context [] before) after, ?_, length_entries context _ _, ?_⟩
    · rw [ofGraph, others, entries_append]
    · rw [ofGraph, split, entries_append, entries_cons_of_error context failed]

-- A class that fails on its own stands between two classes with one file.
example :
    (ofGraph { layout := { root := ⟨"out"⟩ } } {
      classes := [{ name := "Role" }, { name := "class" }, { name := "role" }]
      enums := [{ name := "Role" }] }).map (fun entry =>
        match entry.request with
        | .ok request => request.path.text
        | .error error => error.message) = [
      "out/models/role.model.ts",
      "'class' is a reserved word",
      "output file out/models/role.model.ts is already generated for 'Role'",
      "out/enums/role.enum.ts"] := by
  decide +kernel

end ApiBindings.Plan
