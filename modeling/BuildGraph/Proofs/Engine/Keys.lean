import BuildGraph.Proofs.Draft
import BuildGraph.Proofs.Engine.Change

/-! How the engine reads keys and list entries.

On a scope whose owner is held the engine does what the operations on its draft say. On
another scope it refuses, and what it has done by then is told as well.
-/

set_option autoImplicit false

namespace BuildGraph.Engine

def draft (engine : Engine) : Draft := ⟨engine.store, engine.globals⟩

def withDraft (engine : Engine) (draft : Draft) : Engine :=
  { engine with store := draft.store, globals := draft.globals }

@[simp] theorem draft_store (engine : Engine) : engine.draft.store = engine.store := rfl

@[simp] theorem withDraft_store (engine : Engine) (draft : Draft) :
    (engine.withDraft draft).store = draft.store := rfl

@[simp] theorem withDraft_draft (engine : Engine) : engine.withDraft engine.draft = engine := rfl

@[simp] theorem draft_withDraft (engine : Engine) (draft : Draft) :
    (engine.withDraft draft).draft = draft := rfl

@[simp] theorem withoutHeld_draft (engine : Engine) : engine.withoutHeld.draft = engine.draft := rfl

@[simp] theorem withoutHeld_scopes (engine : Engine) :
    engine.withoutHeld.scopes = engine.scopes := rfl

@[simp] theorem withDraft_scopes (engine : Engine) (draft : Draft) :
    (engine.withDraft draft).scopes = engine.scopes := rfl

@[simp] theorem withoutHeld_mappings (engine : Engine) :
    engine.withoutHeld.mappings = engine.mappings := rfl

@[simp] theorem withDraft_mappings (engine : Engine) (draft : Draft) :
    (engine.withDraft draft).mappings = engine.mappings := rfl

@[simp] theorem withoutHeld_listOpen (engine : Engine) :
    engine.withoutHeld.listOpen = engine.listOpen := rfl

@[simp] theorem withDraft_listOpen (engine : Engine) (draft : Draft) :
    (engine.withDraft draft).listOpen = engine.listOpen := rfl

variable {engine : Engine} {raw : String} {name : TargetName} {owner parent : TargetId}
  {outer : List TargetId}

/-! ## Keys -/

theorem createGlobal_eq (name : TargetName) (engine : Engine) :
    createGlobal name engine =
      .ok engine.store.size (engine.withDraft (engine.draft.create none name)) := rfl

theorem create_eq (live : engine.draft.Live engine.scopes.top) :
    create name engine =
      .ok engine.store.size (engine.withDraft (engine.draft.create engine.scopes.top name)) := by
  cases top : engine.scopes.top with
  | none =>
    simp only [create, Change.bind_apply, Change.get_apply, top]
    exact createGlobal_eq name engine
  | some owner =>
    have ownerHeld : owner < (engine.store.push name).size := by
      rw [Store.size_push]
      exact Nat.lt_succ_of_lt (live owner top)
    simp [create, top, Store.link_eq_attach ownerHeld]
    rfl

theorem lookup_eq (live : engine.draft.Live engine.scopes.top) (cleaned : String) :
    engine.lookup cleaned =
      .ok (engine.store.find? (engine.draft.members engine.scopes.top) cleaned) := by
  cases top : engine.scopes.top with
  | none => simp [lookup, top, Draft.members, draft]
  | some owner =>
    obtain ⟨target, found⟩ := Store.get_of_lt (live owner top)
    rw [draft_store] at found
    simp [lookup, top, found, Draft.members, Store.edges_of_get found, Except.map]

theorem place_eq (live : engine.draft.Live engine.scopes.top) :
    place name engine =
      .ok (engine.draft.place engine.scopes.top name).2
        (engine.withDraft (engine.draft.place engine.scopes.top name).1) := by
  simp only [place, Draft.place, Change.bind_apply, Change.get_apply, lookup_eq live,
    Change.lift_store_ok, Change.pure_apply, draft_store]
  cases engine.store.find? (engine.draft.members engine.scopes.top) name.cleaned with
  | none => exact create_eq live
  | some id => rfl

theorem declareKey_eq (named : TargetName.ofString raw = .ok name)
    (live : engine.draft.Live engine.scopes.top) :
    declareKey raw engine =
      .ok (engine.draft.declare engine.scopes.top name).2
        (engine.withDraft (engine.draft.declare engine.scopes.top name).1) := by
  have placed := Draft.place_lt engine.draft engine.scopes.top name
  simp only [declareKey, named, Change.lift_name_ok, Change.bind_apply, Change.pure_apply,
    Change.get_apply, place_eq live, withDraft_store, Store.declare_eq_modify placed,
    Change.lift_store_ok, setStore_apply]
  rfl

/-- The owner of the scope is not in the store, which was taken away in between. -/
theorem declareKey_stale (named : TargetName.ofString raw = .ok name)
    (top : engine.scopes.top = some owner) (unknown : engine.store.size ≤ owner) :
    declareKey raw engine = .error (.store (.unknown owner engine.store.size)) engine := by
  simp [declareKey, named, place, lookup, top, Store.get_of_le unknown, Except.map]

/-! ## The key held back -/

def settled (engine : Engine) : Engine :=
  match engine.held.map TargetName.ofString with
  | some (.ok name) =>
    engine.withoutHeld.withDraft (engine.draft.declare engine.scopes.top name).1
  | _ => engine

theorem settled_of_none (nothing : engine.held = none) : engine.settled = engine := by
  simp [settled, nothing]

theorem settled_draft_of_none (nothing : engine.held = none) :
    engine.settled.draft = engine.draft := by
  rw [settled_of_none nothing]

theorem settled_of_some (held : engine.held = some raw)
    (named : TargetName.ofString raw = .ok name) :
    engine.settled =
      engine.withoutHeld.withDraft (engine.draft.declare engine.scopes.top name).1 := by
  simp [settled, held, named]

@[simp] theorem settled_phase (engine : Engine) : engine.settled.phase = engine.phase := by
  unfold settled
  split <;> rfl

@[simp] theorem settled_scopes (engine : Engine) : engine.settled.scopes = engine.scopes := by
  unfold settled
  split <;> rfl

@[simp] theorem settled_mappings (engine : Engine) : engine.settled.mappings = engine.mappings := by
  unfold settled
  split <;> rfl

@[simp] theorem settled_listOpen (engine : Engine) : engine.settled.listOpen = engine.listOpen := by
  unfold settled
  split <;> rfl

theorem size_le_settled (engine : Engine) : engine.store.size ≤ engine.settled.store.size := by
  unfold settled
  split
  · exact Draft.size_le_declare engine.draft _ _
  · exact Nat.le_refl _

theorem settled_grounded (grounded : engine.draft.Grounded) : engine.settled.draft.Grounded := by
  unfold settled
  split
  · exact grounded.declare
  · exact grounded

/-- The key held back can be read: its scope is there, unless there is no such key. -/
def Settles (engine : Engine) : Prop :=
  engine.held = none ∨ engine.draft.Live engine.scopes.top

theorem Settles.live (settles : engine.Settles) (held : engine.held = some raw) :
    engine.draft.Live engine.scopes.top := by
  obtain nothing | live := settles
  · rw [held] at nothing
    cases nothing
  · exact live

def HeldNamed (engine : Engine) : Prop :=
  ∀ raw, engine.held = some raw → ∃ name, TargetName.ofString raw = .ok name

theorem settled_held (named : engine.HeldNamed) : engine.settled.held = none := by
  cases held : engine.held with
  | none => rw [settled_of_none held, held]
  | some raw =>
    obtain ⟨name, split⟩ := named raw held
    rw [settled_of_some held split]
    rfl

theorem settle_eq (named : engine.HeldNamed) (settles : engine.Settles) :
    settle engine = .ok () engine.settled := by
  cases held : engine.held with
  | none =>
    have same : engine.withoutHeld = engine := by
      rw [withoutHeld, ← held]
    simp [settle, held, settled_of_none held, same]
  | some raw =>
    obtain ⟨name, split⟩ := named raw held
    have read : declareKey raw engine.withoutHeld = .ok _ _ :=
      declareKey_eq split (settles.live held)
    rw [settled_of_some held split]
    simp [settle, held, read]

theorem settle_stale (held : engine.held = some raw) (named : TargetName.ofString raw = .ok name)
    (top : engine.scopes.top = some owner) (unknown : engine.store.size ≤ owner) :
    settle engine = .error (.store (.unknown owner engine.store.size)) engine.withoutHeld := by
  have read : declareKey raw engine.withoutHeld = .error _ _ := declareKey_stale named top unknown
  simp [settle, held, read]
  rfl

/-! ## List entries -/

theorem resolveEntry_eq (live : engine.draft.Live engine.scopes.parent) (name : TargetName) :
    engine.resolveEntry name.cleaned = .ok (engine.draft.resolve engine.scopes.parent name) := by
  cases above : engine.scopes.parent with
  | none => simp [resolveEntry, above, Draft.resolve, Draft.siblings, Store.find?, draft]
  | some parent =>
    obtain ⟨target, found⟩ := Store.get_of_lt (live parent above)
    rw [draft_store] at found
    simp [resolveEntry, above, found, Draft.resolve, Draft.siblings, Store.edges_of_get found,
      Except.map, draft]

theorem placeEntry_eq (live : engine.draft.Live engine.scopes.parent) :
    placeEntry name engine =
      .ok (engine.draft.placeEntry engine.scopes.parent name).2
        (engine.withDraft (engine.draft.placeEntry engine.scopes.parent name).1) := by
  simp only [placeEntry, Draft.placeEntry, Change.bind_apply, Change.get_apply,
    resolveEntry_eq live, Change.lift_store_ok, Change.pure_apply]
  cases engine.draft.resolve engine.scopes.parent name <;> rfl

theorem addEntry_eq (top : engine.scopes.top = some owner)
    (live : engine.draft.Live engine.scopes.parent)
    (held : owner < (engine.draft.placeEntry engine.scopes.parent name).1.store.size) :
    addEntry name engine =
      .ok () (engine.withDraft (engine.draft.addEntry engine.scopes.parent owner name)) := by
  have placed := Draft.placeEntry_lt engine.draft engine.scopes.parent name
  simp only [addEntry, Change.bind_apply, Change.get_apply, top, placeEntry_eq live,
    withDraft_store, Store.link_eq_attach held placed, Change.lift_store_ok, Change.pure_apply,
    setStore_apply]
  rfl

/-- The target that was created for the entry stays when the list's owner is unknown. -/
theorem addEntry_unknown_owner (top : engine.scopes.top = some owner)
    (live : engine.draft.Live engine.scopes.parent)
    (unknown : (engine.draft.placeEntry engine.scopes.parent name).1.store.size ≤ owner) :
    addEntry name engine =
      .error
        (.store (.unknown owner (engine.draft.placeEntry engine.scopes.parent name).1.store.size))
        (engine.withDraft (engine.draft.placeEntry engine.scopes.parent name).1) := by
  have placed := Draft.placeEntry_lt engine.draft engine.scopes.parent name
  simp only [addEntry, Change.bind_apply, Change.get_apply, top, placeEntry_eq live,
    withDraft_store, Store.link_unknown_owner unknown placed, Change.lift_store_error,
    Change.throw_apply]

theorem addEntry_unknown_parent (top : engine.scopes.top = some owner)
    (above : engine.scopes.parent = some parent) (unknown : engine.store.size ≤ parent) :
    addEntry name engine = .error (.store (.unknown parent engine.store.size)) engine := by
  simp [addEntry, top, placeEntry, resolveEntry, above, Store.get_of_le unknown, Except.map]

end BuildGraph.Engine
