import BuildGraph.Proofs.Store.Lookup

/-! The graph of a document that is still open: its targets so far and its global names.

A scope is the global one or belongs to a target, whose dependency list it is. Keys are
resolved in their scope at once, list entries among the siblings of the list's owner and
then globally. No operation can fail; they do what is meant when the numbers they get are
held by the store, which `Grounded` says of the global names.
-/

set_option autoImplicit false

namespace BuildGraph

structure Draft where
  store : Store
  globals : List TargetId
  deriving DecidableEq, Repr

namespace Draft

variable {draft : Draft} {scope outer : Option TargetId} {name : TargetName} {id owner : TargetId}

def empty : Draft := ⟨.empty, []⟩

def members (draft : Draft) : Option TargetId → List TargetId
  | none => draft.globals
  | some owner => draft.store.edges owner

def enlist (draft : Draft) (scope : Option TargetId) (id : TargetId) : Draft :=
  match scope with
  | none => { draft with globals := draft.globals ++ [id] }
  | some owner => { draft with store := draft.store.attach owner id }

def create (draft : Draft) (scope : Option TargetId) (name : TargetName) : Draft :=
  { draft with store := draft.store.push name }.enlist scope draft.store.size

/-- The target of a key: the first one of its name in the scope, else a new one. -/
def place (draft : Draft) (scope : Option TargetId) (name : TargetName) : Draft × TargetId :=
  match draft.store.find? (draft.members scope) name.cleaned with
  | some id => (draft, id)
  | none => (draft.create scope name, draft.store.size)

def declare (draft : Draft) (scope : Option TargetId) (name : TargetName) : Draft × TargetId :=
  let (placed, id) := draft.place scope name
  ({ placed with store := placed.store.modify id Target.declare }, id)

def siblings (draft : Draft) : Option TargetId → List TargetId
  | none => []
  | some outer => draft.store.edges outer

/-- The target that a list entry names, for a list whose owner was declared in `outer`. -/
def resolve (draft : Draft) (outer : Option TargetId) (name : TargetName) : Option TargetId :=
  (draft.store.find? (draft.siblings outer) name.cleaned).or
    (draft.store.find? draft.globals name.cleaned)

def placeEntry (draft : Draft) (outer : Option TargetId) (name : TargetName) : Draft × TargetId :=
  match draft.resolve outer name with
  | some id => (draft, id)
  | none => (draft.create none name, draft.store.size)

def addEntry (draft : Draft) (outer : Option TargetId) (owner : TargetId) (name : TargetName) :
    Draft :=
  let (placed, id) := draft.placeEntry outer name
  placed.enlist (some owner) id

/-! ## Numbers that are held -/

def Live (draft : Draft) (scope : Option TargetId) : Prop :=
  ∀ owner, scope = some owner → owner < draft.store.size

def Grounded (draft : Draft) : Prop :=
  ∀ id ∈ draft.globals, id < draft.store.size

theorem enlist_size : (draft.enlist scope id).store.size = draft.store.size := by
  cases scope <;> simp [enlist]

theorem create_size : (draft.create scope name).store.size = draft.store.size + 1 := by
  simp [create, enlist_size]

theorem size_le_place (draft : Draft) (scope : Option TargetId) (name : TargetName) :
    draft.store.size ≤ (draft.place scope name).1.store.size := by
  unfold place
  split
  · exact Nat.le_refl _
  · simp [create_size]

theorem place_lt (draft : Draft) (scope : Option TargetId) (name : TargetName) :
    (draft.place scope name).2 < (draft.place scope name).1.store.size := by
  unfold place
  split
  · next found => exact Store.find?_lt found
  · simp [create_size]

theorem size_le_declare (draft : Draft) (scope : Option TargetId) (name : TargetName) :
    draft.store.size ≤ (draft.declare scope name).1.store.size := by
  simpa [declare] using size_le_place draft scope name

theorem declare_lt (draft : Draft) (scope : Option TargetId) (name : TargetName) :
    (draft.declare scope name).2 < (draft.declare scope name).1.store.size := by
  simpa [declare] using place_lt draft scope name

theorem resolve_lt (found : draft.resolve outer name = some id) : id < draft.store.size := by
  simp only [resolve, Option.or_eq_some_iff] at found
  obtain found | ⟨_, found⟩ := found <;> exact Store.find?_lt found

theorem size_le_placeEntry (draft : Draft) (outer : Option TargetId) (name : TargetName) :
    draft.store.size ≤ (draft.placeEntry outer name).1.store.size := by
  unfold placeEntry
  split <;> simp [create_size]

theorem placeEntry_lt (draft : Draft) (outer : Option TargetId) (name : TargetName) :
    (draft.placeEntry outer name).2 < (draft.placeEntry outer name).1.store.size := by
  unfold placeEntry
  split
  · next found => exact resolve_lt found
  · simp [create_size]

theorem size_le_addEntry (draft : Draft) (outer : Option TargetId) (owner : TargetId)
    (name : TargetName) : draft.store.size ≤ (draft.addEntry outer owner name).store.size := by
  simpa [addEntry, enlist_size] using size_le_placeEntry draft outer name

theorem Grounded.enlist (grounded : draft.Grounded) (held : id < draft.store.size) :
    (draft.enlist scope id).Grounded := by
  intro member listed
  rw [enlist_size]
  cases scope with
  | none =>
    simp only [Draft.enlist, List.mem_append, List.mem_singleton] at listed
    obtain listed | rfl := listed
    · exact grounded member listed
    · exact held
  | some owner => exact grounded member listed

theorem Grounded.create (grounded : draft.Grounded) : (draft.create scope name).Grounded := by
  apply Grounded.enlist
  · intro member listed
    have held := grounded member listed
    simpa using Nat.lt_succ_of_lt held
  · simp

theorem Grounded.declare (grounded : draft.Grounded) : (draft.declare scope name).1.Grounded := by
  have placed : (draft.place scope name).1.Grounded := by
    unfold place
    split
    · exact grounded
    · exact grounded.create
  intro member listed
  simpa [Draft.declare] using placed member listed

theorem Grounded.addEntry (grounded : draft.Grounded) :
    (draft.addEntry outer owner name).Grounded := by
  have placed : (draft.placeEntry outer name).1.Grounded := by
    unfold Draft.placeEntry
    split
    · exact grounded
    · exact grounded.create
  exact placed.enlist (placeEntry_lt draft outer name)

end Draft

end BuildGraph
