import BuildGraph.Proofs.Engine.Reached

/-! What a refused event leaves behind.

As long as the store is only released between documents, nothing changes but the phase. A
store that is released too early leaves stale numbers in the scopes, and one refusal then
does change the graph.
-/

set_option autoImplicit false

namespace BuildGraph

/-- The cause lies in the events: a name, an event out of order, or one after an abort. -/
def EngineError.FromEvents : EngineError → Prop
  | .name _ => True
  | .outOfOrder _ reason => reason ≠ .listWithoutOwner
  | .aborted => True
  | .store _ => False
  | .scope _ => False

namespace Engine

variable {engine next left : Engine} {event : Event} {cause : EngineError}

/-! ## Orderly releases -/

/-- The refusals of a sound engine come before any change. -/
theorem Sound.refused (sound : engine.Sound) (refused : Refused engine event cause left) :
    cause.FromEvents ∧ left = engine := by
  -- The stale ways ask for an owner that is not in the store.
  cases refused with
  | staleScope active noList held top unknown reading =>
    exact absurd (sound.top_live active _ top) (Nat.not_lt.mpr unknown)
  | staleParent active list named top above unknown =>
    exact absurd (sound.parent_live active _ above) (Nat.not_lt.mpr unknown)
  | @staleOwner _ name _ _ _ active list named top live resolved unknown =>
    have grown := Draft.size_le_placeEntry engine.draft engine.scopes.parent name
    rw [resolved] at grown
    exact absurd (sound.top_live active _ top) (Nat.not_lt.mpr (Nat.le_trans grown unknown))
  | aborted aborted other => exact ⟨trivial, rfl⟩
  | name active refused => exact ⟨trivial, rfl⟩
  | _ => exact ⟨nofun, rfl⟩

/-- Outside of mappings no scope is open, and the state says so. -/
theorem Layered.state_ne (layered : engine.Layered) : engine.state ≠ .inMapping 0 := by
  intro same
  simp only [state] at same
  split at same
  · cases same
  · cases same
  · split at same
    · cases same
    · split at same
      · cases same
      · next nested =>
        simp only [EngineState.inMapping.injEq, Nat.add_eq_zero_iff, List.length_eq_zero_iff]
          at same
        obtain ⟨flat, noList⟩ := same
        exact nested ⟨flat, by rw [layered.depth, flat, noList]; rfl⟩

/-- A refusal only aborts the document. The scopes of an open document belong to its open
mappings and its open list, and everything that the engine refers to is in the store. -/
theorem refusal_only_aborts (reached : Reached Closed engine) :
    (∀ event cause next, engine.feed event = (next, .error cause) →
      cause.FromEvents ∧ next = { engine with phase := .aborted } ∧ next.state = .aborted) ∧
    (engine.phase = .active →
      engine.scopes.depth = engine.mappings.count .keyed + engine.listOpen.toNat ∧
      (∀ owner ∈ engine.scopes.owners, owner < engine.store.size) ∧
      (∀ id ∈ engine.globals, id < engine.store.size) ∧
      (engine.listOpen = true → engine.held = none) ∧
      engine.state ≠ .inMapping 0) := by
  have sound := reached.sound
  constructor
  · intro event cause next failed
    obtain ⟨left, refused, rfl⟩ := sound.toLayered.refused_of_feed failed
    obtain ⟨fromEvents, rfl⟩ := sound.refused refused
    exact ⟨fromEvents, rfl, rfl⟩
  · intro active
    exact ⟨sound.depth, sound.owners active, sound.globals active, sound.alone,
      sound.toLayered.state_ne⟩

theorem refusal_only_aborts_in_list :
    let keyed := ((initial.release.2.feed .documentStart).1.feed (.scalar "app")).1
    let listed := (keyed.feed .listStart).1
    listed.feed .mappingStart =
      ({ listed with phase := .aborted }, .error (.outOfOrder .mappingStart .namesOnly)) ∧
    listed.scopes.depth = listed.mappings.count .keyed + 1 := by
  intro keyed listed
  have reached : Reached Closed listed :=
    .feed _ (.feed _ (.feed _ (.release .initial (.inl rfl))))
  obtain ⟨refusals, placed⟩ := refusal_only_aborts reached
  obtain ⟨-, same, -⟩ := refusals .mappingStart _ _ rfl
  exact ⟨by rw [← same]; rfl, (placed rfl).1⟩

/-! ## Releases at any time -/

/-- A list is open whose owner was taken away with the store, and there is nothing that
`name` could resolve to. -/
structure Orphaned (engine : Engine) (name : TargetName) (owner : TargetId) : Prop where
  active : engine.phase = .active
  list : engine.listOpen = true
  top : engine.scopes.top = some owner
  lost : engine.store.size < owner
  parent : engine.draft.Live engine.scopes.parent
  fresh : engine.draft.resolve engine.scopes.parent name = none

/-- The entry of an orphaned list is created among the global names before it is refused. -/
theorem Orphaned.feed {raw : String} {name : TargetName} {owner : TargetId}
    (orphaned : engine.Orphaned name owner) (layered : engine.Layered)
    (named : TargetName.ofString raw = .ok name) :
    engine.feed (.scalar raw) =
      ({ engine.withDraft (engine.draft.create none name) with phase := .aborted },
        .error (.store (.unknown owner (engine.store.size + 1)))) := by
  have resolved : engine.draft.placeEntry engine.scopes.parent name =
      (engine.draft.create none name, engine.store.size) := by
    rw [Draft.placeEntry, orphaned.fresh]
    rfl
  have size : (engine.draft.create none name).store.size = engine.store.size + 1 :=
    Draft.create_size
  rw [← size]
  exact feed_of_refused layered
    (.staleOwner orphaned.active orphaned.list named orphaned.top orphaned.parent resolved
      (size ▸ orphaned.lost))

theorem Refused.draft_or_orphaned (refused : Refused engine event cause left) :
    left.draft = engine.draft ∨
      ∃ raw name owner, event = .scalar raw ∧ TargetName.ofString raw = .ok name ∧
        engine.Orphaned name owner := by
  cases refused with
  | @staleOwner raw name owner placed id active list named top live resolved unknown =>
    rw [Draft.placeEntry] at resolved
    split at resolved
    · obtain ⟨rfl, rfl⟩ := Prod.mk.inj resolved
      exact .inl rfl
    · next fresh =>
      obtain ⟨rfl, rfl⟩ := Prod.mk.inj resolved
      rw [Draft.create_size] at unknown
      exact .inr ⟨raw, name, owner, rfl, named, active, list, top, unknown, live, fresh⟩
  | _ => exact .inl rfl

/-- Of all the refusals, in any order of events and releases, one changes the graph. -/
theorem refusal_changes_graph_iff (reached : Reached (fun _ => True) engine) (event : Event) :
    (∃ next cause, engine.feed event = (next, .error cause) ∧
      (next.store ≠ engine.store ∨ next.globals ≠ engine.globals)) ↔
    ∃ raw name owner, event = .scalar raw ∧ TargetName.ofString raw = .ok name ∧
      engine.Orphaned name owner := by
  have layered := reached.layered
  constructor
  · rintro ⟨next, cause, failed, changed⟩
    obtain ⟨left, refused, rfl⟩ := layered.refused_of_feed failed
    obtain same | orphaned := refused.draft_or_orphaned
    · obtain ⟨stores, globals⟩ := Draft.mk.inj same
      obtain changed | changed := changed
      · exact absurd stores changed
      · exact absurd globals changed
    · exact orphaned
  · rintro ⟨raw, name, owner, rfl, named, orphaned⟩
    refine ⟨_, _, orphaned.feed layered named, .inl ?_⟩
    intro same
    have grown : (engine.draft.create none name).store.size = engine.store.size :=
      congrArg Store.size same
    rw [Draft.create_size] at grown
    exact absurd grown (Nat.succ_ne_self _)

/-- The store is released inside the list of the second key. -/
theorem refusal_changes_graph_in_orphaned_list :
    let keyed := ((initial.feed .documentStart).1.feed (.scalar "app")).1
    let listed := ((keyed.feed (.scalar "web")).1.feed .listStart).1
    ∃ next cause, listed.release.2.feed (.scalar "log") = (next, .error cause) ∧
      (next.store ≠ listed.release.2.store ∨ next.globals ≠ listed.release.2.globals) := by
  intro keyed listed
  have reached : Reached (fun _ => True) listed.release.2 :=
    .release (.feed _ (.feed _ (.feed _ (.feed _ .initial)))) trivial
  exact (refusal_changes_graph_iff reached _).mpr
    ⟨"log", ⟨none, "log"⟩, 1, rfl, rfl, rfl, rfl, rfl, by decide, nofun, rfl⟩

end Engine

end BuildGraph
