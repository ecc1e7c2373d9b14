import BuildGraph.Proofs.Draft.Growth
import BuildGraph.Proofs.Engine.Moves
import BuildGraph.Proofs.Engine.Refusal

/-! No event takes anything away from the graph of its document.

An event reads at most one key or one list entry, whether it is accepted or not, so it adds at most
one target and one entry of a dependency list. What a name was resolved to in a scope it goes on to
mean there, up to the end of the document.
-/

set_option autoImplicit false

namespace BuildGraph.Engine

open Draft (GrowsTo GrowsByOne)

variable {engine next : Engine} {event : Event} {scope : Option TargetId} {cleaned : String}
  {id : TargetId}

/-! ## One event -/

theorem settled_grows (engine : Engine) : engine.draft.GrowsByOne engine.settled.draft := by
  unfold settled
  split
  · exact .declare engine.draft _ _
  · exact .refl engine.draft

theorem declared_grows {name : TargetName} {draft : Draft}
    (declared : engine.draft.declare scope name = (draft, id)) : engine.draft.GrowsByOne draft := by
  obtain rfl : draft = (engine.draft.declare scope name).1 := by rw [declared]
  exact .declare engine.draft scope name

theorem Accepted.grows (accepted : Accepted engine event next) (inside : event ≠ .documentStart) :
    engine.draft.GrowsByOne next.draft := by
  cases accepted with
  | documentStart => exact absurd rfl inside
  | documentEnd => exact settled_grows engine
  | bareStart => exact .refl engine.draft
  | keyedStart _ _ _ _ _ declared => exact declared_grows declared
  | bareEnd => exact settled_grows engine
  | keyedEnd => exact settled_grows engine
  | listStart _ _ _ _ _ declared => exact declared_grows declared
  | listEnd => exact .refl engine.draft
  | key => exact settled_grows engine
  | entry => exact .addEntry engine.draft _ _ _

theorem Reached.draft_feed (reached : Reached Closed engine) (event : Event) :
    (∃ next, Accepted engine event next ∧ (engine.feed event).1 = next) ∨
      (engine.feed event).1.draft = engine.draft := by
  have sound := reached.sound
  obtain ⟨next, accepted⟩ | ⟨cause, left, refused⟩ := accepted_or_refused sound.toLayered event
  · rw [feed_of_accepted sound.toLayered accepted]
    exact .inl ⟨next, accepted, rfl⟩
  · obtain ⟨-, rfl⟩ := sound.refused refused
    rw [feed_of_refused sound.toLayered refused]
    exact .inr rfl

theorem Reached.feed_grows (reached : Reached Closed engine) (inside : event ≠ .documentStart) :
    engine.draft.GrowsByOne (engine.feed event).1.draft := by
  obtain ⟨next, accepted, fed⟩ | same := reached.draft_feed event
  · exact fed ▸ accepted.grows inside
  · exact same ▸ .refl engine.draft

theorem Reached.feed_find? (reached : Reached Closed engine) (inside : event ≠ .documentStart)
    (found : engine.draft.find? scope cleaned = some id) :
    (engine.feed event).1.draft.find? scope cleaned = some id := by
  obtain ⟨next, accepted, fed⟩ | same := reached.draft_feed event
  · -- In an open document all that a scope lists is in the store, so nothing new gets in front.
    have grounded := reached.sound.globals (accepted.active inside)
    rw [fed]
    exact (accepted.grows inside).toGrowsTo.find? reached.built grounded found
  · rw [same, found]

/-! ## The rest of a document -/

def feedAll (engine : Engine) (events : List Event) : Engine :=
  events.foldl (fun engine event => (engine.feed event).1) engine

theorem Reached.feedAll {mayRelease : Engine → Prop} (reached : Reached mayRelease engine)
    (events : List Event) : Reached mayRelease (engine.feedAll events) := by
  induction events generalizing engine with
  | nil => exact reached
  | cons event rest ih => exact ih (reached.feed event)

theorem Reached.feedAll_grows {events : List Event} (reached : Reached Closed engine)
    (inside : .documentStart ∉ events) : engine.draft.GrowsTo (engine.feedAll events).draft := by
  induction events generalizing engine with
  | nil => exact .refl engine.draft
  | cons event rest ih =>
    obtain ⟨first, later⟩ := List.ne_and_not_mem_of_not_mem_cons inside
    exact (reached.feed_grows first.symm).toGrowsTo.trans (ih (reached.feed event) later)

theorem Reached.feedAll_find? {events : List Event} (reached : Reached Closed engine)
    (inside : .documentStart ∉ events) (found : engine.draft.find? scope cleaned = some id) :
    (engine.feedAll events).draft.find? scope cleaned = some id := by
  induction events generalizing engine with
  | nil => exact found
  | cons event rest ih =>
    obtain ⟨first, later⟩ := List.ne_and_not_mem_of_not_mem_cons inside
    exact ih (reached.feed event) later (reached.feed_find? first.symm found)

/-- As long as no new document starts, the graph only grows, by at most one target and one entry
with each event. A name that was found in a scope is found there as the same target, whatever is
accepted or refused from then on. -/
theorem document_only_grows (reached : Reached Closed engine) :
    (∀ event, event ≠ .documentStart → engine.draft.GrowsByOne (engine.feed event).1.draft) ∧
    ∀ events, .documentStart ∉ events →
      engine.draft.GrowsTo (engine.feedAll events).draft ∧
      ∀ scope cleaned id, engine.draft.find? scope cleaned = some id →
        (engine.feedAll events).draft.find? scope cleaned = some id :=
  ⟨fun _ inside => reached.feed_grows inside, fun _ inside =>
    ⟨reached.feedAll_grows inside, fun _ _ _ found => reached.feedAll_find? inside found⟩⟩

/-- A list names its own owner, which becomes a library, and a second target of a name that is
nested elsewhere. Then an event is refused and ends the document. -/
theorem document_only_grows_self_listed :
    let listed := (initial.feedAll [.documentStart, .scalar "app", .mappingStart, .scalar "log",
      .mappingEnd, .scalar "app"]).feedAll [.listStart]
    let events := [Event.scalar "app", .scalar "log", .mappingStart, .listEnd]
    listed.draft.store = ⟨[⟨0, "app", .executable, none, [1], true⟩,
      ⟨1, "log", .library, none, [], true⟩]⟩ ∧
    (listed.feedAll events).draft = ⟨⟨[⟨0, "app", .library, none, [1, 0, 2], true⟩,
      ⟨1, "log", .library, none, [], true⟩, ⟨2, "log", .library, none, [], false⟩]⟩, [0, 2]⟩ ∧
    listed.draft.GrowsByOne (listed.feed (.scalar "app")).1.draft ∧
    listed.draft.GrowsTo (listed.feedAll events).draft ∧
    (listed.feedAll events).draft.find? (some 0) "log" = some 1 := by
  intro listed events
  have reached : Reached Closed listed := Reached.initial.feedAll _ |>.feedAll _
  obtain ⟨each, all⟩ := document_only_grows reached
  obtain ⟨grows, finds⟩ := all events (by simp [events])
  exact ⟨rfl, rfl, each _ nofun, grows, finds (some 0) "log" 1 rfl⟩

end BuildGraph.Engine
