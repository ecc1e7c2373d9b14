import BuildGraph.Proofs.Store.Built

/-! Calls that change a store in place.

Such a call goes step by step and may fail between two changes, which would leave a store that is
changed in part. No call does so: what may be missing is looked up before anything is changed, and
what is looked up again is still there. So each call does as a whole what the operation of its name
does, and what is left behind is a built store, whose edges can be followed both ways.
-/

set_option autoImplicit false

namespace BuildGraph

/-- A change of a store in place. A failure stops it, and what it has changed by then stays. -/
abbrev Edit (ε : Type) := EStateM ε Store

inductive CallError where
  | name (cause : NameError)
  | store (cause : StoreError)
  deriving DecidableEq, Repr

def Store.Call.operation (store : Store) : Store.Call → Except CallError Store
  | .add name => ((store.add name).map Prod.fst).mapError .name
  | .link owner dependency => (store.link owner dependency).mapError .store
  | .declare id => (store.declare id).mapError .store
  | .clear => .ok .empty

namespace Edit

def find (id : TargetId) : Edit StoreError Target := fun store =>
  match store.get id with
  | .ok target => .ok target store
  | .error cause => .error cause store

def update (id : TargetId) (change : Target → Target) : Edit StoreError Unit := do
  let _ ← find id
  modify fun store => store.modify id change

def add (raw : String) : Edit NameError TargetId :=
  match TargetName.ofString raw with
  | .error cause => throw cause
  | .ok name => modifyGet fun store => (store.size, store.push name)

/-- The dependency is looked up before its owner is changed, and again to be changed itself. -/
def link (owner dependency : TargetId) : Edit StoreError Unit := do
  let _ ← find dependency
  update owner (·.withDependency dependency)
  update dependency Target.linkAsLibrary

def declare (id : TargetId) : Edit StoreError Unit := update id Target.declare

def clear : Edit CallError Unit := set Store.empty

def call : Store.Call → Edit CallError Unit
  | .add name => do
    let _ ← (add name).adaptExcept .name
    return
  | .link owner dependency => (link owner dependency).adaptExcept .store
  | .declare id => (declare id).adaptExcept .store
  | .clear => clear

def left {ε α : Type} : EStateM.Result ε Store α → Store
  | .ok _ store => store
  | .error _ store => store

/-! ## Each edit is one operation -/

section

variable {ε α β : Type} {store next : Store} {id owner dependency : TargetId}
  {first : Edit ε α} {rest : α → Edit ε β} {value : α} {cause : ε}

theorem bind_of_ok (ran : first store = .ok value next) :
    (first >>= rest) store = rest value next := by
  simp only [bind, EStateM.bind, ran]

theorem bind_of_error (ran : first store = .error cause next) :
    (first >>= rest) store = .error cause next := by
  simp only [bind, EStateM.bind, ran]

def ending (store : Store) : Except ε Store → EStateM.Result ε Store Unit
  | .ok next => .ok () next
  | .error cause => .error cause store

theorem find_of_lt (held : id < store.size) : ∃ target, find id store = .ok target store := by
  obtain ⟨target, found⟩ := Store.get_of_lt held
  exact ⟨target, by rw [find, found]⟩

theorem find_of_le (unknown : store.size ≤ id) :
    find id store = .error (.unknown id store.size) store := by
  rw [find, Store.get_of_le unknown]

theorem update_of_lt (held : id < store.size) (change : Target → Target) :
    update id change store = .ok () (store.modify id change) := by
  obtain ⟨target, found⟩ := find_of_lt held
  exact bind_of_ok found

theorem update_of_le (unknown : store.size ≤ id) (change : Target → Target) :
    update id change store = .error (.unknown id store.size) store :=
  bind_of_error (find_of_le unknown)

theorem add_apply (raw : String) (store : Store) : add raw store =
    match store.add raw with
    | .ok (next, id) => .ok id next
    | .error cause => .error cause store := by
  rw [add, Store.add]
  cases TargetName.ofString raw <;> rfl

/-- The second look at the dependency finds what the first one found, even if it is the owner that
was changed in between. -/
theorem link_apply (owner dependency : TargetId) (store : Store) :
    link owner dependency store = ending store (store.link owner dependency) := by
  rcases Nat.lt_or_ge dependency store.size with held | unknown
  · obtain ⟨target, found⟩ := find_of_lt held
    refine (bind_of_ok found).trans ?_
    rcases Nat.lt_or_ge owner store.size with ownerHeld | unknown
    · -- No update changes how many targets there are.
      rw [Store.link_eq_attach ownerHeld held]
      refine (bind_of_ok (update_of_lt ownerHeld _)).trans ?_
      exact update_of_lt (by rwa [Store.size_modify]) _
    · rw [Store.link_unknown_owner unknown held]
      exact bind_of_error (update_of_le unknown _)
  · have refused : store.link owner dependency = .error (.unknown dependency store.size) := by
      simp only [Store.link, Store.get_of_le unknown]
    rw [refused]
    exact bind_of_error (find_of_le unknown)

theorem declare_apply (id : TargetId) (store : Store) :
    declare id store = ending store (store.declare id) := by
  rcases Nat.lt_or_ge id store.size with held | unknown
  · rw [Store.declare_eq_modify held]
    exact update_of_lt held _
  · have refused : store.declare id = .error (.unknown id store.size) := by
      rw [Store.declare, Store.get_of_le unknown]
      rfl
    rw [refused]
    exact update_of_le unknown _

/-- A call that fails on its way has changed nothing by then. -/
theorem call_apply (call : Store.Call) (store : Store) :
    Edit.call call store = ending store (call.operation store) := by
  cases call with
  | add raw =>
    simp only [Edit.call, bind, EStateM.bind, EStateM.adaptExcept, add_apply, Store.Call.operation]
    cases store.add raw <;> rfl
  | link owner dependency =>
    simp only [Edit.call, EStateM.adaptExcept, link_apply, Store.Call.operation]
    cases store.link owner dependency <;> rfl
  | declare id =>
    simp only [Edit.call, EStateM.adaptExcept, declare_apply, Store.Call.operation]
    cases store.declare id <;> rfl
  | clear => rfl

theorem left_call (call : Store.Call) (store : Store) :
    left (Edit.call call store) = store.after call := by
  rw [call_apply]
  cases call with
  | add raw =>
    rw [Store.Call.operation, Store.after]
    cases store.add raw <;> rfl
  | link owner dependency =>
    rw [Store.Call.operation, Store.after]
    cases store.link owner dependency <;> rfl
  | declare id =>
    rw [Store.Call.operation, Store.after]
    cases store.declare id <;> rfl
  | clear => rfl

theorem eq_of_call_error {call : Store.Call} {cause : CallError}
    (failed : Edit.call call store = .error cause next) : next = store := by
  rw [call_apply] at failed
  cases made : call.operation store with
  | ok done =>
    rw [made] at failed
    cases failed
  | error _ =>
    rw [made] at failed
    cases failed
    rfl

end

end Edit

namespace Store

variable {store next : Store} {id owner dependency : TargetId}

/-! ## What an accepted edge changes -/

/-- The target with this number as an edge leaves it. The owner has one more dependency, and the
dependency is a library if it was an executable by default. -/
def relinked (owner dependency id : TargetId) (target : Target) : Target :=
  { target with
    dependencies :=
      if owner = id then target.dependencies ++ [dependency] else target.dependencies
    usage :=
      if dependency = id ∧ target.usage = .executable ∧ target.hint = none then .library
      else target.usage }

theorem linkAsLibrary_eq (target : Target) : target.linkAsLibrary =
    { target with
      usage :=
        if target.usage = .executable ∧ target.hint = none then .library else target.usage } := by
  unfold Target.linkAsLibrary
  split <;> rfl

theorem get?_attach : (store.attach owner dependency).get? id =
    (store.get? id).map (relinked owner dependency id) := by
  rw [attach, get?_modify, get?_modify]
  cases store.get? id with
  | none => simp
  | some target =>
    -- Owner and dependency may be the same target, so the two changes meet in one of the cases.
    by_cases own : owner = id <;> by_cases linked : dependency = id <;>
      simp [relinked, Target.withDependency, linkAsLibrary_eq, own, linked]

theorem link_eq_ok_iff : store.link owner dependency = .ok next ↔
    (owner < store.size ∧ dependency < store.size) ∧ next = store.attach owner dependency := by
  constructor
  · intro linked
    obtain ⟨ownerHeld, held⟩ := link_known linked
    rw [link_eq_attach ownerHeld held] at linked
    cases linked
    exact ⟨⟨ownerHeld, held⟩, rfl⟩
  · rintro ⟨⟨ownerHeld, held⟩, rfl⟩
    exact link_eq_attach ownerHeld held

/-! ## Following edges both ways -/

theorem get?_of_get {target : Target} (found : store.get id = .ok target) :
    store.get? id = some target := by
  rw [get] at found
  split at found
  · next held =>
    cases found
    exact held
  · cases found

theorem Built.mapM_get (built : store.Built) {ids : List TargetId}
    (held : ∀ id ∈ ids, id < store.size) :
    ∃ targets, ids.mapM store.get = .ok targets ∧ targets.map Target.id = ids := by
  induction ids with
  | nil => exact ⟨[], rfl, rfl⟩
  | cons id ids ih =>
    obtain ⟨here, later⟩ := List.forall_mem_cons.mp held
    obtain ⟨target, found⟩ := get_of_lt here
    obtain ⟨targets, all, numbers⟩ := ih later
    refine ⟨target :: targets, ?_, ?_⟩
    · simp only [List.mapM_cons, found, all]
      rfl
    · rw [List.map_cons, numbers, built.id_eq (get?_of_get found)]

theorem Built.exists_dependencies (built : store.Built) (held : id < store.size) :
    ∃ targets, store.dependencies id = .ok targets ∧ targets.map Target.id = store.edges id := by
  obtain ⟨target, found⟩ := get_of_lt held
  have edges := edges_of_get found
  rw [dependencies, found, edges]
  refine built.mapM_get fun dependency listed => ?_
  have edge : store.DependsOn id dependency := by rwa [DependsOn, edges]
  exact built.coherent.closed edge

theorem dependencies_of_le (unknown : store.size ≤ id) :
    store.dependencies id = .error (.unknown id store.size) := by
  rw [dependencies, get_of_le unknown]

def owners (store : Store) (id : TargetId) : List TargetId :=
  (store.targets.filter fun target => target.dependencies.contains id).map Target.id

theorem dependents_of_lt (held : id < store.size) :
    store.dependents id = .ok (store.owners id) := by
  obtain ⟨target, found⟩ := get_of_lt held
  rw [dependents, found]
  rfl

theorem dependents_of_le (unknown : store.size ≤ id) :
    store.dependents id = .error (.unknown id store.size) := by
  rw [dependents, get_of_le unknown]
  rfl

theorem Built.mem_owners (built : store.Built) :
    owner ∈ store.owners dependency ↔ store.DependsOn owner dependency := by
  rw [owners, dependsOn_iff, List.mem_map]
  constructor
  · rintro ⟨target, listed, rfl⟩
    obtain ⟨member, lists⟩ := List.mem_filter.mp listed
    obtain ⟨id, held⟩ := List.mem_iff_getElem?.mp member
    rw [built.id_eq held]
    exact ⟨target, held, List.contains_iff_mem.mp lists⟩
  · rintro ⟨target, held, lists⟩
    exact ⟨target, List.mem_filter.mpr ⟨List.mem_of_getElem? held, List.contains_iff_mem.mpr lists⟩,
      built.id_eq held⟩

theorem Built.increasing_owners (built : store.Built) : (store.owners id).Pairwise (· < ·) := by
  have part : (store.owners id).Sublist store.ids :=
    built.numbered ▸ (List.filter_sublist).map Target.id
  exact List.Pairwise.sublist part List.pairwise_lt_range

/-- What is found for every number that is held, and for no other, fails just for the others. -/
theorem eq_error_iff {α : Type} {found : Except StoreError α} {cause : StoreError}
    (here : id < store.size → ∃ value, found = .ok value)
    (missing : store.size ≤ id → found = .error (.unknown id store.size)) :
    found = .error cause ↔ store.size ≤ id ∧ cause = .unknown id store.size := by
  rcases Nat.lt_or_ge id store.size with held | unknown
  · obtain ⟨value, rfl⟩ := here held
    simp [Nat.not_le_of_lt held]
  · simp [missing unknown, unknown, eq_comm]

theorem Built.mem_dependencies_iff (built : store.Built) :
    (∃ targets, store.dependencies owner = .ok targets ∧ dependency ∈ targets.map Target.id) ↔
      store.DependsOn owner dependency := by
  constructor
  · rintro ⟨targets, found, listed⟩
    rcases Nat.lt_or_ge owner store.size with held | unknown
    · obtain ⟨_, same, numbers⟩ := built.exists_dependencies held
      cases same.symm.trans found
      rwa [numbers] at listed
    · cases (dependencies_of_le unknown).symm.trans found
  · intro edge
    obtain ⟨targets, found, numbers⟩ := built.exists_dependencies (lt_of_dependsOn edge)
    exact ⟨targets, found, numbers ▸ edge⟩

theorem Built.mem_dependents_iff (built : store.Built) :
    (∃ owners, store.dependents dependency = .ok owners ∧ owner ∈ owners) ↔
      store.DependsOn owner dependency := by
  rw [← built.mem_owners]
  constructor
  · rintro ⟨owners, found, listed⟩
    rcases Nat.lt_or_ge dependency store.size with held | unknown
    · cases (dependents_of_lt held).symm.trans found
      exact listed
    · cases (dependents_of_le unknown).symm.trans found
  · intro listed
    have held := built.coherent.closed (built.mem_owners.mp listed)
    exact ⟨_, dependents_of_lt held, listed⟩

/-! ## What a caller may rely on -/

structure Reliable (store : Store) : Prop where
  /-- A target carries the number of its place. -/
  numbered : ∀ id target, store.get? id = some target → target.id = id
  /-- Only targets of the store are listed. -/
  closed : ∀ id target, store.get? id = some target →
    ∀ dependency ∈ target.dependencies, dependency < store.size
  /-- A call in place does what the operation does that hands back a new store. -/
  whole : ∀ call, Edit.call call store = Edit.ending store (call.operation store)
  /-- If it fails, it leaves the store as it was. -/
  atomic : ∀ call cause next, Edit.call call store = .error cause next → next = store
  /-- An edge between two targets of the store is accepted. -/
  accepts : ∀ owner dependency, (∃ next, store.link owner dependency = .ok next) ↔
    owner < store.size ∧ dependency < store.size
  /-- It changes the list of its owner and, at most, the usage of the dependency. -/
  linked : ∀ owner dependency next, store.link owner dependency = .ok next →
    ∀ id, next.get? id = (store.get? id).map (relinked owner dependency id)
  /-- Dependencies are found for all targets of the store. -/
  dependencies_error : ∀ id cause, store.dependencies id = .error cause ↔
    store.size ≤ id ∧ cause = .unknown id store.size
  /-- Dependents are found for all targets of the store. -/
  dependents_error : ∀ id cause, store.dependents id = .error cause ↔
    store.size ≤ id ∧ cause = .unknown id store.size
  /-- The dependents of a target are those that have it as a dependency. -/
  converse : ∀ owner dependency,
    (∃ targets, store.dependencies owner = .ok targets ∧ dependency ∈ targets.map Target.id) ↔
      ∃ owners, store.dependents dependency = .ok owners ∧ owner ∈ owners
  /-- Each of them is given once and in order. -/
  increasing : ∀ id owners, store.dependents id = .ok owners → owners.Pairwise (· < ·)

theorem Built.reliable (built : store.Built) : store.Reliable where
  numbered _ _ held := built.id_eq held
  closed id target held dependency listed :=
    built.coherent.closed (dependsOn_iff.mpr ⟨target, held, listed⟩)
  whole call := Edit.call_apply call store
  atomic _ _ _ failed := Edit.eq_of_call_error failed
  accepts owner dependency := by simp [link_eq_ok_iff]
  linked owner dependency next linked id := by
    obtain ⟨-, rfl⟩ := link_eq_ok_iff.mp linked
    exact get?_attach
  dependencies_error _ _ := eq_error_iff
    (fun held => (built.exists_dependencies held).imp fun _ found => found.1) dependencies_of_le
  dependents_error _ _ := eq_error_iff (fun held => ⟨_, dependents_of_lt held⟩) dependents_of_le
  converse _ _ := built.mem_dependencies_iff.trans built.mem_dependents_iff.symm
  increasing id owners found := by
    rcases Nat.lt_or_ge id store.size with held | unknown
    · cases (dependents_of_lt held).symm.trans found
      exact built.increasing_owners
    · cases (dependents_of_le unknown).symm.trans found

/-- Whatever calls are made in place from the empty store on, and whether they fail or not, a caller
may rely on the store that they leave behind. -/
theorem reliable_of_calls (calls : List Call) :
    (calls.foldl (fun store call => Edit.left (Edit.call call store)) .empty).Reliable := by
  simp only [Edit.left_call]
  exact (Built.calls .empty calls).reliable

end Store

end BuildGraph
