import BuildGraph.Proofs.Draft.Confined
import BuildGraph.Proofs.Engine.Reached

/-! No event lets a target out of the scope that it was created in.

The creators of the targets are written down event by event, from what the engine is before the
event and how large its store is before and after. As long as a document is open the record
agrees with the graph, and the scopes that are open lie in each other.
-/

set_option autoImplicit false

namespace BuildGraph.Engine

variable {engine next : Engine} {event : Event} {creators : Creators}

/-! ## Recording creators -/

/-- The creators after an event. A key is created in the scope of the innermost mapping that has
one, a list entry outside of every scope. -/
def record (engine : Engine) (event : Event) (creators : Creators) : Creators :=
  if event = .documentStart ∧ engine.phase ≠ .active then []
  else creators.record engine.store (engine.feed event).1.store
    (if engine.listOpen then none else engine.scopes.top)

/-- An engine whose store is taken only outside of documents, with the creators of the targets
of its document. -/
inductive Recorded : Engine → Creators → Prop where
  | initial : Recorded initial []
  | feed {engine : Engine} {creators : Creators} (event : Event)
      (recorded : Recorded engine creators) :
      Recorded (engine.feed event).1 (engine.record event creators)
  | release {engine : Engine} {creators : Creators} (recorded : Recorded engine creators)
      (closed : engine.Closed) : Recorded engine.release.2 []

theorem Recorded.reached (recorded : Recorded engine creators) : Reached Closed engine := by
  induction recorded with
  | initial => exact .initial
  | feed event _ reached => exact reached.feed event
  | release _ closed reached => exact reached.release closed

theorem Reached.exists_recorded (reached : Reached Closed engine) :
    ∃ creators, Recorded engine creators := by
  induction reached with
  | initial => exact ⟨[], .initial⟩
  | feed event _ ih =>
    obtain ⟨creators, recorded⟩ := ih
    exact ⟨_, recorded.feed event⟩
  | release _ closed ih =>
    obtain ⟨creators, recorded⟩ := ih
    exact ⟨[], recorded.release closed⟩

theorem record_of_accepted (layered : engine.Layered) (accepted : Accepted engine event next)
    (inside : event ≠ .documentStart) :
    engine.record event creators =
      creators.record engine.store next.store
        (if engine.listOpen then none else engine.scopes.top) := by
  rw [record, feed_of_accepted layered accepted, if_neg fun start => inside start.1]

/-! ## What an event keeps -/

structure Enclosed (engine : Engine) (creators : Creators) : Prop where
  confined : engine.draft.Confined creators
  nested : engine.draft.Nested engine.scopes.owners

theorem Enclosed.settled (enclosed : engine.Enclosed creators)
    (live : engine.draft.Live engine.scopes.top) :
    engine.settled.Enclosed
      (creators.record engine.store engine.settled.store engine.scopes.top) := by
  unfold Engine.settled
  split
  · exact ⟨enclosed.confined.declare live _, enclosed.nested.grows (.declare live)⟩
  · rw [Creators.record_self]
    exact enclosed

/-- A key that is read may own a scope inside of the current one. -/
theorem Enclosed.declared {name : TargetName} {draft : Draft} {id : TargetId}
    (enclosed : engine.Enclosed creators) (live : engine.draft.Live engine.scopes.top)
    (declared : engine.draft.declare engine.scopes.top name = (draft, id)) :
    draft.Confined (creators.record engine.store draft.store engine.scopes.top) ∧
      draft.Nested (engine.scopes.push id).owners := by
  obtain rfl : draft = (engine.draft.declare engine.scopes.top name).1 := by rw [declared]
  obtain rfl : id = (engine.draft.declare engine.scopes.top name).2 := by rw [declared]
  exact ⟨enclosed.confined.declare live name, Draft.declare_mem live,
    enclosed.nested.grows (.declare live)⟩

theorem Enclosed.accepted (sound : engine.Sound)
    (enclosed : engine.phase = .active → engine.Enclosed creators)
    (accepted : Accepted engine event next) : next.Enclosed (engine.record event creators) := by
  by_cases start : event = .documentStart
  · subst start
    cases accepted with
    | documentStart closed =>
      rw [record, if_pos ⟨rfl, closed⟩]
      exact ⟨.empty, trivial⟩
  rw [record_of_accepted sound.toLayered accepted start]
  -- A key is read in the innermost scope before an event opens or closes one.
  have live : engine.phase = .active → engine.draft.Live engine.scopes.top := sound.top_live
  cases accepted with
  | documentStart closed => exact absurd rfl start
  | documentEnd active noList flat =>
    obtain ⟨confined, nested⟩ := (enclosed active).settled (live active)
    rw [noList]
    exact ⟨confined, nested⟩
  | bareStart active noList nothing =>
    obtain ⟨confined, nested⟩ := enclosed active
    rw [Creators.record_self]
    exact ⟨confined, nested⟩
  | keyedStart active noList held named _ declared =>
    obtain ⟨confined, nested⟩ := (enclosed active).declared (live active) declared
    rw [noList]
    exact ⟨confined, nested⟩
  | bareEnd active noList innermost settles =>
    obtain ⟨confined, nested⟩ := (enclosed active).settled (live active)
    rw [noList]
    exact ⟨confined, nested⟩
  | keyedEnd active noList innermost scope settles =>
    obtain ⟨confined, nested⟩ := (enclosed active).settled (live active)
    rw [settled_scopes, scope] at nested
    rw [noList]
    exact ⟨confined, nested.2⟩
  | listStart active noList held named _ declared =>
    obtain ⟨confined, nested⟩ := (enclosed active).declared (live active) declared
    rw [noList]
    exact ⟨confined, nested⟩
  | listEnd active list scope =>
    obtain ⟨confined, nested⟩ := enclosed active
    rw [scope] at nested
    rw [Creators.record_self]
    exact ⟨confined, nested.2⟩
  | key active noList named settles =>
    obtain ⟨confined, nested⟩ := (enclosed active).settled (live active)
    rw [noList]
    exact ⟨confined, nested⟩
  | entry active list named top _ ownerHeld =>
    obtain ⟨confined, nested⟩ := enclosed active
    obtain ⟨owners, scope⟩ := List.head?_eq_some_iff.mp top
    have held := live active _ top
    -- The scope around the innermost one is where the list's owner was declared.
    have around : engine.scopes.parent = owners.head? := by
      rw [ScopeStack.parent, scope, List.getElem?_cons_succ, List.head?_eq_getElem?]
    have declared := nested
    rw [scope, Draft.Nested, ← around] at declared
    rw [list]
    exact ⟨confined.addEntry held declared.1 _, nested.grows (.addEntry held)⟩

theorem Recorded.enclosed (recorded : Recorded engine creators) :
    engine.phase = .active → engine.Enclosed creators := by
  induction recorded with
  | initial => exact nofun
  | @feed engine creators event recorded ih =>
    have sound := recorded.reached.sound
    obtain ⟨next, accepted⟩ | ⟨cause, next, refused⟩ := accepted_or_refused sound.toLayered event
    · intro _
      have enclosed := Enclosed.accepted sound ih accepted
      rwa [feed_of_accepted sound.toLayered accepted]
    · -- A refusal ends the document.
      rw [feed_of_refused sound.toLayered refused]
      exact nofun
  | release _ closed => exact fun active => absurd active closed.not_active

/-- In a document that is open or was just completed, the global names are in order and distinct,
and every other target has one creator, below which all the targets that list it are found. -/
theorem recorded_confined :
    (∀ engine, Reached Closed engine ↔ ∃ creators, Recorded engine creators) ∧
    ∀ engine creators, Recorded engine creators →
      (engine.phase = .active → engine.draft.Confined creators) ∧
      ∀ next, engine.feed .documentEnd = (next, .ok .documentDone) →
        next.draft.Confined (engine.record .documentEnd creators) := by
  constructor
  · exact fun engine => ⟨Reached.exists_recorded, fun ⟨_, recorded⟩ => recorded.reached⟩
  · intro engine creators recorded
    refine ⟨fun active => (recorded.enclosed active).confined, fun next completed => ?_⟩
    have sound := recorded.reached.sound
    obtain ⟨done, accepted⟩ | ⟨cause, left, refused⟩ :=
      accepted_or_refused sound.toLayered .documentEnd
    · have enclosed := Enclosed.accepted sound recorded.enclosed accepted
      rw [feed_of_accepted sound.toLayered accepted] at completed
      cases completed
      exact enclosed.confined
    · rw [feed_of_refused sound.toLayered refused] at completed
      cases completed

/-- A list reaches a sibling of its owner, and their creator leads to the owner. -/
theorem recorded_confined_sibling :
    let events := [Event.documentStart, .scalar "app", .mappingStart, .scalar "core",
      .scalar "gui*", .listStart, .scalar "core", .scalar "log", .listEnd, .mappingEnd]
    let engine := events.foldl (fun engine event => (engine.feed event).1) initial
    let creators := [none, some 0, some 0, none]
    Recorded engine creators ∧ engine.draft.Confined creators ∧
      engine.store.edges 2 = [1, 3] ∧ engine.store.LeadsTo 0 2 ∧
      (engine.feed .documentEnd).1.draft.Confined creators := by
  intro events engine creators
  have recorded : Recorded engine creators :=
    .feed _ (.feed _ (.feed _ (.feed _ (.feed _ (.feed _ (.feed _ (.feed _ (.feed _ (.feed _
      .initial)))))))))
  obtain ⟨-, confined⟩ := recorded_confined
  obtain ⟨whileOpen, whenDone⟩ := confined engine creators recorded
  have opened := whileOpen rfl
  have listed : engine.store.DependsOn 2 1 := List.mem_cons_self
  obtain same | below := opened.inside (show Creators.of creators 1 = some 0 from rfl) listed
  · cases same
  · exact ⟨recorded, opened, rfl, below, whenDone _ rfl⟩

end BuildGraph.Engine
