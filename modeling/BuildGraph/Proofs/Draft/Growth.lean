import BuildGraph.Proofs.Draft.Moves

/-! A document only adds to its graph.

Targets keep their numbers, names and hints, and every list is only ever continued at its end. So
the first target of a name in a scope stays the first one, and whatever a name was resolved to
before, it is resolved to again.
-/

set_option autoImplicit false

namespace BuildGraph

/-! ## Targets -/

structure Target.GrowsTo (target later : Target) : Prop where
  id : later.id = target.id
  name : later.name = target.name
  hint : later.hint = target.hint
  dependencies : target.dependencies <+: later.dependencies
  usage : later.usage = target.usage ∨
    target.usage = .executable ∧ later.usage = .library ∧ target.hint = none
  declared : target.declared = true → later.declared = true

namespace Target.GrowsTo

variable {target middle later : Target}

theorem refl (target : Target) : target.GrowsTo target :=
  ⟨rfl, rfl, rfl, List.prefix_refl _, .inl rfl, fun declared => declared⟩

theorem trans (first : target.GrowsTo middle) (second : middle.GrowsTo later) :
    target.GrowsTo later where
  id := second.id.trans first.id
  name := second.name.trans first.name
  hint := second.hint.trans first.hint
  dependencies := first.dependencies.trans second.dependencies
  usage := by
    obtain same | ⟨executable, library, unmarked⟩ := second.usage
    · rw [same]
      exact first.usage
    · -- What is an executable in the middle was one before.
      rw [first.hint] at unmarked
      obtain same | ⟨-, changed, -⟩ := first.usage
      · exact .inr ⟨same ▸ executable, library, unmarked⟩
      · rw [changed] at executable
        cases executable
  declared := fun declared => second.declared (first.declared declared)

theorem withDependency (target : Target) (dependency : TargetId) :
    target.GrowsTo (target.withDependency dependency) :=
  { refl target with dependencies := List.prefix_append _ _ }

theorem linkAsLibrary (target : Target) : target.GrowsTo target.linkAsLibrary := by
  unfold Target.linkAsLibrary
  split
  · next unmarked => exact { refl target with usage := .inr ⟨unmarked.1, rfl, unmarked.2⟩ }
  · exact refl target

theorem declare (target : Target) : target.GrowsTo target.declare :=
  { refl target with declared := fun _ => rfl }

end Target.GrowsTo

/-! ## Stores -/

namespace Store

variable {store middle later : Store} {id owner dependency : TargetId}

def GrowsTo (store later : Store) : Prop :=
  ∀ id target, store.get? id = some target →
    ∃ next, later.get? id = some next ∧ target.GrowsTo next

def entryCount (store : Store) : Nat := (store.targets.flatMap Target.dependencies).length

namespace GrowsTo

theorem refl (store : Store) : store.GrowsTo store :=
  fun _ target held => ⟨target, held, .refl target⟩

theorem trans (first : store.GrowsTo middle) (second : middle.GrowsTo later) :
    store.GrowsTo later := by
  intro id target held
  obtain ⟨between, heldThen, grows⟩ := first id target held
  obtain ⟨next, heldLast, growsOn⟩ := second id between heldThen
  exact ⟨next, heldLast, grows.trans growsOn⟩

theorem push (store : Store) (name : TargetName) : store.GrowsTo (store.push name) :=
  fun _ target held => ⟨target, (get?_push_of_lt (lt_of_get? held)).trans held, .refl target⟩

theorem modify (store : Store) (id : TargetId) {change : Target → Target}
    (grows : ∀ target : Target, target.GrowsTo (change target)) :
    store.GrowsTo (store.modify id change) := by
  intro other target held
  rw [get?_modify, held]
  split
  · exact ⟨change target, rfl, grows target⟩
  · exact ⟨target, rfl, .refl target⟩

theorem attach (store : Store) (owner dependency : TargetId) :
    store.GrowsTo (store.attach owner dependency) :=
  (modify store owner (.withDependency · dependency)).trans (modify _ dependency .linkAsLibrary)

theorem edges (grows : store.GrowsTo later) (id : TargetId) :
    store.edges id <+: later.edges id := by
  cases held : store.get? id with
  | none =>
    rw [edges_of_le (get?_eq_none_iff.mp held)]
    exact List.nil_prefix
  | some target =>
    obtain ⟨next, heldThen, target⟩ := grows id target held
    rw [edges_of_get? held, edges_of_get? heldThen]
    exact target.dependencies

theorem name? (grows : store.GrowsTo later) (held : id < store.size) :
    later.name? id = store.name? id := by
  have found : store.get? id = some store.targets[id] := List.getElem?_eq_getElem held
  obtain ⟨next, foundThen, target⟩ := grows id _ found
  rw [Store.name?, Store.name?, found, foundThen]
  exact congrArg some target.name

theorem declared? (grows : store.GrowsTo later) (declared : store.declared? id = some true) :
    later.declared? id = some true := by
  obtain ⟨target, held, declared⟩ := Option.map_eq_some_iff.mp declared
  obtain ⟨next, heldThen, grown⟩ := grows id target held
  rw [Store.declared?, heldThen]
  exact congrArg some (grown.declared declared)

end GrowsTo

/-! ## Lookups -/

theorem find?_eq_some_iff {candidates : List TargetId} {cleaned : String} :
    store.find? candidates cleaned = some id ↔
      store.name? id = some cleaned ∧ ∃ front back, candidates = front ++ id :: back ∧
        ∀ other ∈ front, store.name? other ≠ some cleaned := by
  have named : ∀ other, ((store.get? other).any fun target => target.name == cleaned) = true ↔
      store.name? other = some cleaned := by
    intro other
    cases held : store.get? other <;> simp [Store.name?, held]
  simp only [Store.find?, List.find?_eq_some_iff_append, named, Bool.not_eq_true',
    ← Bool.not_eq_true]

/-- What is found among targets of the store is found again when there are more candidates behind
them. -/
theorem GrowsTo.find? {candidates more : List TargetId} {cleaned : String}
    (grows : store.GrowsTo later) (held : ∀ id ∈ candidates, id < store.size)
    (longer : candidates <+: more) (found : store.find? candidates cleaned = some id) :
    later.find? more cleaned = some id := by
  obtain ⟨named, front, back, rfl, others⟩ := find?_eq_some_iff.mp found
  have same : ∀ other ∈ front ++ id :: back, later.name? other = store.name? other :=
    fun other member => grows.name? (held other member)
  have again : later.find? (front ++ id :: back) cleaned = some id := by
    refine find?_eq_some_iff.mpr ⟨?_, front, back, rfl, fun other member => ?_⟩
    · rw [same id (by simp), named]
    · rw [same other (List.mem_append_left _ member)]
      exact others other member
  exact longer.find?_eq_some again

theorem modify_declare_of_declared (declared : store.declared? id = some true) :
    store.modify id Target.declare = store := by
  obtain ⟨target, held, declared⟩ := Option.map_eq_some_iff.mp declared
  refine congrArg Store.mk (List.ext_getElem? fun other => ?_)
  rw [List.getElem?_modify]
  split
  · next same =>
    rw [get?, same] at held
    rw [held, Option.map_eq_map, Option.map_some, Target.declare, ← declared]
  · exact id_map _

/-! ## Entries -/

theorem length_flatMap_modify_le {α β : Type} {change : α → α} {items : α → List β} {extra : Nat}
    (bounded : ∀ a, (items (change a)).length ≤ (items a).length + extra) (list : List α)
    (index : Nat) :
    ((list.modify index change).flatMap items).length ≤ (list.flatMap items).length + extra := by
  induction list generalizing index with
  | nil => simp
  | cons first rest ih =>
    cases index with
    | zero =>
      have here := bounded first
      simp only [List.modify_zero_cons, List.flatMap_cons, List.length_append]
      omega
    | succ index =>
      have there := ih index
      simp only [List.modify_succ_cons, List.flatMap_cons, List.length_append]
      omega

@[simp] theorem entryCount_push (store : Store) (name : TargetName) :
    (store.push name).entryCount = store.entryCount := by
  simp [entryCount, Store.push, Target.ofName]

theorem entryCount_modify {change : Target → Target}
    (same : ∀ target, (change target).dependencies = target.dependencies) (store : Store)
    (id : TargetId) : (store.modify id change).entryCount = store.entryCount := by
  rw [entryCount, List.flatMap_def, map_targets_modify Target.dependencies same, ← List.flatMap_def,
    entryCount]

@[simp] theorem entryCount_declare (store : Store) (id : TargetId) :
    (store.modify id Target.declare).entryCount = store.entryCount := by
  have same : ∀ target : Target, target.declare.dependencies = target.dependencies := fun _ => rfl
  exact entryCount_modify same store id

theorem entryCount_attach_le (store : Store) (owner dependency : TargetId) :
    (store.attach owner dependency).entryCount ≤ store.entryCount + 1 := by
  rw [Store.attach, entryCount_modify dependencies_linkAsLibrary]
  exact length_flatMap_modify_le (fun target => by simp [Target.withDependency]) store.targets owner

end Store

/-! ## Drafts -/

namespace Draft

variable {draft middle later : Draft}
  {scope outer : Option TargetId} {name : TargetName} {id owner : TargetId} {cleaned : String}

structure GrowsTo (draft later : Draft) : Prop where
  store : draft.store.GrowsTo later.store
  globals : draft.globals <+: later.globals

structure GrowsByOne (draft later : Draft) : Prop extends GrowsTo draft later where
  size : later.store.size ≤ draft.store.size + 1
  entryCount : later.store.entryCount ≤ draft.store.entryCount + 1

theorem GrowsTo.refl (draft : Draft) : draft.GrowsTo draft := ⟨.refl _, List.prefix_refl _⟩

theorem GrowsTo.trans (first : draft.GrowsTo middle) (second : middle.GrowsTo later) :
    draft.GrowsTo later :=
  ⟨first.store.trans second.store, first.globals.trans second.globals⟩

theorem GrowsByOne.refl (draft : Draft) : draft.GrowsByOne draft :=
  ⟨.refl draft, Nat.le_succ _, Nat.le_succ _⟩

theorem GrowsByOne.create (draft : Draft) (scope : Option TargetId) (name : TargetName) :
    draft.GrowsByOne (draft.create scope name) := by
  have size : (draft.create scope name).store.size ≤ draft.store.size + 1 :=
    Nat.le_of_eq create_size
  have pushed := Store.GrowsTo.push draft.store name
  have entries := Store.entryCount_push draft.store name
  cases scope with
  | none => exact ⟨⟨pushed, List.prefix_append _ _⟩, size, entries ▸ Nat.le_succ _⟩
  | some owner =>
    exact ⟨⟨pushed.trans (.attach _ _ _), List.prefix_refl _⟩, size,
      entries ▸ Store.entryCount_attach_le _ _ _⟩

theorem GrowsByOne.declare (draft : Draft) (scope : Option TargetId) (name : TargetName) :
    draft.GrowsByOne (draft.declare scope name).1 := by
  have placed : draft.GrowsByOne (draft.place scope name).1 := by
    unfold place
    split
    · exact .refl draft
    · exact .create draft scope name
  refine ⟨⟨placed.store.trans (.modify _ _ .declare), placed.globals⟩, ?_, ?_⟩
  · simpa [Draft.declare] using placed.size
  · simpa [Draft.declare] using placed.entryCount

/-- A target that is created for an entry goes to the global names, which adds no entry yet. -/
theorem entryCount_placeEntry (draft : Draft) (outer : Option TargetId) (name : TargetName) :
    (draft.placeEntry outer name).1.store.entryCount = draft.store.entryCount := by
  unfold placeEntry
  split
  · rfl
  · exact Store.entryCount_push draft.store name

theorem GrowsByOne.addEntry (draft : Draft) (outer : Option TargetId) (owner : TargetId)
    (name : TargetName) : draft.GrowsByOne (draft.addEntry outer owner name) := by
  have placed : draft.GrowsByOne (draft.placeEntry outer name).1 := by
    unfold placeEntry
    split
    · exact .refl draft
    · exact .create draft none name
  refine ⟨⟨placed.store.trans (.attach _ _ _), placed.globals⟩, ?_, ?_⟩
  · simpa [Draft.addEntry, Draft.enlist] using placed.size
  · exact entryCount_placeEntry draft outer name ▸ Store.entryCount_attach_le _ _ _

/-! ## Scopes -/

theorem GrowsTo.members (grows : draft.GrowsTo later) (scope : Option TargetId) :
    draft.members scope <+: later.members scope := by
  cases scope with
  | none => exact grows.globals
  | some owner => exact grows.store.edges owner

def find? (draft : Draft) (scope : Option TargetId) (cleaned : String) : Option TargetId :=
  draft.store.find? (draft.members scope) cleaned

theorem members_lt (built : draft.store.Built) (grounded : draft.Grounded)
    (scope : Option TargetId) : ∀ id ∈ draft.members scope, id < draft.store.size := by
  cases scope with
  | none => exact grounded
  | some owner => exact fun _ edge => built.coherent.closed edge

theorem GrowsTo.find? (grows : draft.GrowsTo later) (built : draft.store.Built)
    (grounded : draft.Grounded) (found : draft.find? scope cleaned = some id) :
    later.find? scope cleaned = some id :=
  grows.store.find? (members_lt built grounded scope) (grows.members scope) found

/-! ## Reading a key again -/

theorem create_members (live : draft.Live scope) :
    (draft.create scope name).members scope = draft.members scope ++ [draft.store.size] := by
  cases scope with
  | none => rfl
  | some owner =>
    have held : owner < (draft.store.push name).size := by
      rw [Store.size_push]
      exact Nat.lt_succ_of_lt (live owner rfl)
    simp [create, enlist, members, Store.edges_attach held]

theorem find?_create (built : draft.store.Built) (grounded : draft.Grounded)
    (live : draft.Live scope) (fresh : draft.find? scope name.cleaned = none) :
    (draft.create scope name).find? scope name.cleaned = some draft.store.size := by
  rw [Draft.find?, create_members live, Store.find?_eq_some_iff, create_name?]
  refine ⟨Store.name?_push_self, draft.members scope, [], rfl, fun other member => ?_⟩
  rw [Store.name?_push_of_lt (members_lt built grounded scope other member)]
  exact Store.find?_eq_none_iff.mp fresh other member

theorem find?_declare_self (built : draft.store.Built) (grounded : draft.Grounded)
    (live : draft.Live scope) :
    (draft.declare scope name).1.find? scope name.cleaned = some (draft.declare scope name).2 := by
  have placed : (draft.place scope name).1.find? scope name.cleaned =
      some (draft.place scope name).2 := by
    unfold place
    split
    · next found => exact found
    · next fresh => exact find?_create built grounded live fresh
  rw [Draft.find?, Store.find?_eq_some_iff] at placed ⊢
  rw [declare_members]
  simpa [declare] using placed

structure Declares (draft : Draft) (scope : Option TargetId) (cleaned : String) (id : TargetId) :
    Prop where
  found : draft.find? scope cleaned = some id
  declared : draft.store.declared? id = some true

theorem Declares.of_declare (built : draft.store.Built) (grounded : draft.Grounded)
    (live : draft.Live scope) (name : TargetName) :
    (draft.declare scope name).1.Declares scope name.cleaned (draft.declare scope name).2 :=
  ⟨find?_declare_self built grounded live, declared?_declare_self⟩

theorem Declares.grows (declares : draft.Declares scope cleaned id) (grows : draft.GrowsTo later)
    (built : draft.store.Built) (grounded : draft.Grounded) : later.Declares scope cleaned id :=
  ⟨grows.find? built grounded declares.found, grows.store.declared? declares.declared⟩

/-- Such a name can be read as a key any number of times, with any mark. -/
theorem Declares.declare_eq (declares : draft.Declares scope cleaned id)
    (same : name.cleaned = cleaned) : draft.declare scope name = (draft, id) := by
  have found : draft.store.find? (draft.members scope) name.cleaned = some id :=
    same ▸ declares.found
  rw [declare, place, found]
  simp only [Store.modify_declare_of_declared declares.declared]

end Draft

end BuildGraph
