import ApiBindings.Proofs.Binding.Declared
import ApiBindings.Request
import ApiBindings.Target.Printer
import Mathlib.Data.List.Nodup

/-!
# Members of a service class

The members that the text of a service class declares, and those that the bodies of its methods
name after `this`.  The names of the route and of the client are reserved before the methods are
bound, so that no method takes one of them.  The constructor and the member that makes headers are
not reserved: they come in when the class is printed, and whether their names are still free is
decided by the names of the methods.
-/

namespace ApiBindings

open Identifier (toMemberCase)

namespace Target

/-- The names of the members of a service class, each as often as it is declared. -/
def ServiceClass.memberNames (declaration : ServiceClass) : List String :=
  declaration.members.flatMap ServiceMember.declaredNames

/-- The members that the body of a method names after `this`. -/
inductive Method.Uses (method : Method) : String → Prop where
  /-- Every request goes through the client. -/
  | transport {verb : Http.Verb} (sends : method.verb = some verb) : Uses method "http"
  | route {verb : Http.Verb} (sends : method.verb = some verb)
      (printed : "this.baseUrl" ∈ method.callArguments verb) : Uses method "baseUrl"
  | headers {verb : Http.Verb} (sends : method.verb = some verb)
      (printed : "headers: this.jsonHeaders()" ∈ method.requestOptions verb) :
      Uses method "jsonHeaders"

/-- No member is declared twice, and what a method refers to is declared. -/
structure ServiceClass.DeclaresOnce (declaration : ServiceClass) : Prop where
  distinct : declaration.memberNames.Nodup
  referred : ∀ method ∈ declaration.methods, ∀ name, method.Uses name →
    declaration.memberNames.count name = 1

theorem ServiceClass.sendsBodies_eq_true_iff {declaration : ServiceClass} :
    declaration.sendsBodies = true ↔
      ∃ method ∈ declaration.methods, ∃ verb, method.verb = some verb ∧ verb.hasBody = true := by
  simp [sendsBodies, Option.any_eq_true]

theorem Method.hasBody_of_mem_requestOptions {method : Method} {verb : Http.Verb}
    (printed : "headers: this.jsonHeaders()" ∈ method.requestOptions verb) :
    verb.hasBody = true := by
  rw [requestOptions, List.mem_append] at printed
  cases body : verb.hasBody with
  | true => rfl
  | false =>
      -- the one option left lists the query, and starts with another letter
      have unsent : method.bodyParameter? verb = none := by simp [bodyParameter?, body]
      simp only [unsent, Option.isSome_none, Bool.false_eq_true, if_false, List.not_mem_nil,
        false_or, List.mem_ite_nil_left, List.mem_singleton] at printed
      have letters := congrArg String.toList printed.2
      simp at letters

end Target

namespace Binding

open Target (ServiceClass)

/-! ## Scopes -/

/-- The names that are taken in a scope. -/
def Scope.names (scope : Scope) : List String :=
  scope.claimed.map (·.1)

theorem Scope.claim_eq_ok {scope after : Scope} {source converted : String}
    (claimed : scope.claim source converted = .ok after) :
    converted ∉ scope.names ∧ after.names = converted :: scope.names := by
  unfold claim at claimed
  split at claimed
  · cases claimed
  · rename_i unknown
    cases claimed
    refine ⟨?_, rfl⟩
    intro taken
    obtain ⟨⟨name, first⟩, member, rfl⟩ := List.mem_map.mp taken
    have other := List.lookup_eq_none_iff.mp unknown _ member
    simp at other

theorem Scope.convert_eq_ok {scope after : Scope} {source name : String}
    (converted : scope.convert source = .ok (name, after)) :
    toMemberCase source = .ok name ∧ name ∉ scope.names ∧ after.names = name :: scope.names := by
  obtain ⟨member, spelled, converted⟩ := Except.bind_eq_ok_iff.mp converted
  obtain ⟨next, claimed, converted⟩ := Except.bind_eq_ok_iff.mp converted
  cases converted
  exact ⟨spelled, Scope.claim_eq_ok claimed⟩

/-! ## Methods -/

/-- What bound methods keep of those they stand for. -/
structure KeepsMethods (scope : Scope) (sources : List Source.Method)
    (methods : List Target.Method) : Prop where
  names : sources.map (fun source => toMemberCase source.name) =
    methods.map fun method => .ok method.name
  verbs : methods.map (·.verb) = sources.map fun source => some source.verb
  /-- A method takes no name that is taken before. -/
  fresh : scope.names.Nodup → (methods.map (·.name) ++ scope.names).Nodup

theorem keepsMethods_of_bindMethods {dates : DateMapping} {scope : Scope}
    {sources : List Source.Method} {methods : Mapped (List Target.Method)}
    (bound : bindMethods dates scope sources = .ok methods) :
    KeepsMethods scope sources methods.type := by
  induction sources generalizing scope methods with
  | nil =>
      cases bound
      exact ⟨rfl, rfl, id⟩
  | cons source rest ih =>
      obtain ⟨⟨name, after⟩, converted, bound⟩ := Except.bind_eq_ok_iff.mp bound
      obtain ⟨returnType, -, bound⟩ := Except.bind_eq_ok_iff.mp bound
      obtain ⟨parameters, -, bound⟩ := Except.bind_eq_ok_iff.mp bound
      obtain ⟨later, boundRest, bound⟩ := Except.bind_eq_ok_iff.mp bound
      cases bound
      obtain ⟨spelled, unclaimed, taken⟩ := Scope.convert_eq_ok (liftName_eq_ok_iff.mp converted)
      have kept := ih boundRest
      exact {
        names := by rw [List.map_cons, List.map_cons, spelled, kept.names]
        verbs := by rw [List.map_cons, List.map_cons, kept.verbs]
        fresh := by
          intro distinct
          have next : after.names.Nodup := by
            rw [taken]
            exact List.nodup_cons.mpr ⟨unclaimed, distinct⟩
          have all := kept.fresh next
          rw [taken] at all
          exact List.perm_middle.nodup_iff.mp all }

variable {scope : Scope} {sources : List Source.Method} {methods : List Target.Method}

theorem KeepsMethods.mem_names_iff (kept : KeepsMethods scope sources methods) {name : String} :
    name ∈ methods.map (·.name) ↔ ∃ source ∈ sources, toMemberCase source.name = .ok name := by
  have spelled : (.ok name : Except NameError String) ∈
      sources.map (fun source => toMemberCase source.name) ↔ name ∈ methods.map (·.name) := by
    rw [kept.names]
    simp
  rw [← spelled, List.mem_map]

theorem KeepsMethods.any_hasBody (kept : KeepsMethods scope sources methods) :
    methods.any (fun method => method.verb.any Http.Verb.hasBody) =
      sources.any (fun source => source.verb.hasBody) := by
  have verbs := congrArg (List.any · (Option.any Http.Verb.hasBody)) kept.verbs
  simpa only [List.any_map, Function.comp_def, Option.any_some] using verbs

/-! ## Services -/

/-- The members that a service class has besides its methods. -/
def ownMembers (sendsBodies : Bool) : List String :=
  [routeProperty, "constructor", transportProperty] ++
    (if sendsBodies then ["jsonHeaders"] else [])

theorem mem_ownMembers {sendsBodies : Bool} {name : String} :
    name ∈ ownMembers sendsBodies ↔ name = routeProperty ∨ name = "constructor" ∨
      name = transportProperty ∨ (sendsBodies = true ∧ name = "jsonHeaders") := by
  cases sendsBodies <;> simp [ownMembers]

theorem nodup_ownMembers (sendsBodies : Bool) : (ownMembers sendsBodies).Nodup := by
  cases sendsBodies <;> decide

/-- The members that come in when a service is printed, and that no name is reserved for: the
constructor, and what makes headers if there is a request that needs them. -/
def ComesUnreserved (model : Source.Service) (name : String) : Prop :=
  name = "constructor" ∨
    (name = "jsonHeaders" ∧ ∃ method ∈ model.methods, method.verb.hasBody = true)

section

variable {context : Context} {model : Source.Service} {declaration : ServiceClass}

theorem keepsMethods_of_bindService (bound : bindService context model = .ok declaration) :
    KeepsMethods (.ofNames [routeProperty, transportProperty]) model.methods
      declaration.methods := by
  obtain ⟨-, methods, imports, methodsBound, -, rfl⟩ := bindService_eq_ok bound
  exact keepsMethods_of_bindMethods methodsBound

theorem memberNames_of_bindService (bound : bindService context model = .ok declaration) :
    declaration.memberNames =
      ownMembers declaration.sendsBodies ++ declaration.methods.map (·.name) := by
  obtain ⟨-, methods, imports, -, -, rfl⟩ := bindService_eq_ok bound
  have methodNames : (methods.type.map Target.ServiceMember.method).flatMap
      Target.ServiceMember.declaredNames = methods.type.map (·.name) := by
    rw [List.flatMap_map, List.map_eq_flatMap]
    rfl
  rw [ServiceClass.memberNames, ServiceClass.members, List.flatMap_append, methodNames]
  cases ServiceClass.sendsBodies _ <;> rfl

theorem sendsBodies_of_bindService (bound : bindService context model = .ok declaration) :
    declaration.sendsBodies = true ↔ ∃ method ∈ model.methods, method.verb.hasBody = true := by
  rw [ServiceClass.sendsBodies, (keepsMethods_of_bindService bound).any_hasBody,
    List.any_eq_true]

theorem mem_memberNames_of_uses (bound : bindService context model = .ok declaration)
    {method : Target.Method} (member : method ∈ declaration.methods) {name : String}
    (uses : method.Uses name) : name ∈ declaration.memberNames := by
  rw [memberNames_of_bindService bound]
  apply List.mem_append_left
  rw [mem_ownMembers]
  cases uses with
  | transport _ => exact .inr (.inr (.inl rfl))
  | route _ _ => exact .inl rfl
  | headers sends printed =>
      have body := Target.Method.hasBody_of_mem_requestOptions printed
      have sending := ServiceClass.sendsBodies_eq_true_iff.mpr ⟨method, member, _, sends, body⟩
      exact .inr (.inr (.inr ⟨sending, rfl⟩))

theorem one_lt_count_memberNames_iff (bound : bindService context model = .ok declaration)
    {name : String} : 1 < declaration.memberNames.count name ↔ ComesUnreserved model name ∧
      ∃ method ∈ model.methods, toMemberCase method.name = .ok name := by
  have kept := keepsMethods_of_bindService bound
  obtain ⟨distinct, -, free⟩ := List.nodup_append.mp (kept.fresh (by decide))
  -- both halves of the list are free of repetitions, so a repeated name is in both of them
  have methodCount := List.nodup_iff_count_le_one.mp distinct name
  have ownCount := List.nodup_iff_count_le_one.mp (nodup_ownMembers declaration.sendsBodies) name
  have halves : 1 < declaration.memberNames.count name ↔
      name ∈ ownMembers declaration.sendsBodies ∧ name ∈ declaration.methods.map (·.name) := by
    rw [memberNames_of_bindService bound, List.count_append, ← List.count_pos_iff,
      ← List.count_pos_iff]
    omega
  rw [halves, ← kept.mem_names_iff, mem_ownMembers, sendsBodies_of_bindService bound]
  constructor
  · intro ⟨own, taken⟩
    refine ⟨?_, taken⟩
    rcases own with rfl | construction | rfl | ⟨sends, headers⟩
    · exact absurd rfl (free _ taken _ (by simp [Scope.names, Scope.ofNames]))
    · exact .inl construction
    · exact absurd rfl (free _ taken _ (by simp [Scope.names, Scope.ofNames]))
    · exact .inr ⟨headers, sends⟩
  · intro ⟨unreserved, taken⟩
    refine ⟨?_, taken⟩
    rcases unreserved with construction | ⟨headers, sends⟩
    · exact .inr (.inl construction)
    · exact .inr (.inr (.inr ⟨sends, headers⟩))

/-- A name is declared twice in a service class exactly if it belongs to what comes in unreserved
and a method takes it.  Without such a method each member is declared once, and what the methods
refer to is one member. -/
theorem declaresOnce_iff (bound : bindService context model = .ok declaration) :
    (∀ name, 1 < declaration.memberNames.count name ↔ ComesUnreserved model name ∧
      ∃ method ∈ model.methods, toMemberCase method.name = .ok name) ∧
    (declaration.DeclaresOnce ↔ ∀ name, ComesUnreserved model name →
      ∀ method ∈ model.methods, toMemberCase method.name ≠ .ok name) := by
  refine ⟨fun name => one_lt_count_memberNames_iff bound, ?_⟩
  constructor
  · intro once name unreserved method member takes
    have repeated := (one_lt_count_memberNames_iff bound).mpr ⟨unreserved, method, member, takes⟩
    have single := List.nodup_iff_count_le_one.mp once.distinct name
    omega
  · intro free
    have distinct : declaration.memberNames.Nodup := by
      rw [List.nodup_iff_count_le_one]
      intro name
      apply Nat.not_lt.mp
      intro repeated
      obtain ⟨unreserved, method, member, takes⟩ :=
        (one_lt_count_memberNames_iff bound).mp repeated
      exact free name unreserved method member takes
    exact {
      distinct
      referred := by
        intro method member name uses
        have declared := mem_memberNames_of_uses bound member uses
        exact distinct.count.trans (if_pos declared) }

end

theorem declaresOnce_file_service :
    let context : Context := { layout := { root := ⟨"out"⟩ } }
    let model : Source.Service := {
      name := "FileService"
      route := "api/files"
      methods := [
        { name := "Find", verb := .get, returnType := .primitive "string" },
        { name := "Store", verb := .post, returnType := .primitive "void"
          parameters := [⟨"Content", .primitive "string"⟩] }] }
    ∃ declaration, bindService context model = .ok declaration ∧
      declaration.memberNames =
        ["baseUrl", "constructor", "http", "jsonHeaders", "find", "store"] ∧
      declaration.DeclaresOnce := by
  intro context model
  have evaluated : (bindService context model).map ServiceClass.memberNames =
      .ok ["baseUrl", "constructor", "http", "jsonHeaders", "find", "store"] := by
    decide +kernel
  obtain ⟨declaration, bound, names⟩ := Except.map_eq_ok_iff.mp evaluated
  refine ⟨declaration, bound, names, (declaresOnce_iff bound).2.mpr ?_⟩
  have find : toMemberCase "Find" = .ok "find" := by decide +kernel
  have store : toMemberCase "Store" = .ok "store" := by decide +kernel
  intro name unreserved method member
  have free : name ≠ "find" ∧ name ≠ "store" := by
    rcases unreserved with rfl | ⟨rfl, -⟩ <;> decide
  rcases List.mem_cons.mp member with rfl | later
  · rw [find]
    exact fun same => free.1 (Except.ok.inj same).symm
  · obtain rfl := List.mem_singleton.mp later
    rw [store]
    exact fun same => free.2 (Except.ok.inj same).symm

/-- A method that is called like what makes headers is declared beside it. -/
theorem not_declaresOnce_json_headers :
    let context : Context := { layout := { root := ⟨"out"⟩ } }
    let model : Source.Service := {
      name := "Files"
      route := "api/files"
      methods := [
        { name := "JsonHeaders", verb := .post, returnType := .primitive "void"
          parameters := [⟨"Content", .primitive "string"⟩] }] }
    ∃ declaration, bindService context model = .ok declaration ∧
      declaration.memberNames = ["baseUrl", "constructor", "http", "jsonHeaders", "jsonHeaders"] ∧
      ¬ declaration.DeclaresOnce := by
  intro context model
  have evaluated : (bindService context model).map ServiceClass.memberNames =
      .ok ["baseUrl", "constructor", "http", "jsonHeaders", "jsonHeaders"] := by
    decide +kernel
  obtain ⟨declaration, bound, names⟩ := Except.map_eq_ok_iff.mp evaluated
  refine ⟨declaration, bound, names, ?_⟩
  intro once
  have distinct := once.distinct
  rw [names] at distinct
  revert distinct
  decide

end Binding

end ApiBindings
