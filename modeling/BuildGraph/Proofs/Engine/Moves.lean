import BuildGraph.Proofs.Draft.Moves
import BuildGraph.Proofs.Engine.Reached

/-! Events read documents by moves.

Inside a document an accepted event makes moves of the draft and its open scopes, even if the
store was taken away before. So what all moves keep needs no look at the events. The usages that
are found in a store follow from its hints and edges, whatever has happened to the engine.
-/

set_option autoImplicit false

namespace BuildGraph.Engine

open Draft (Moves)

variable {engine next : Engine} {event : Event} {cause : EngineError}
  {mayRelease : Engine → Prop}

theorem settled_moves (named : engine.HeldNamed) (settles : engine.Settles) :
    Moves engine.draft engine.scopes.owners engine.settled.draft engine.settled.scopes.owners := by
  cases held : engine.held with
  | none =>
    rw [settled_of_none held]
    exact .stay
  | some raw =>
    obtain ⟨name, split⟩ := named raw held
    rw [settled_of_some held split]
    exact Moves.stay.key split (settles.live held)

/-- The scope that opens is that of the key. -/
theorem declared_moves {raw : String} {name : TargetName} {draft : Draft} {id : TargetId}
    (named : TargetName.ofString raw = .ok name) (live : engine.draft.Live engine.scopes.top)
    (declared : engine.draft.declare engine.scopes.top name = (draft, id)) :
    Moves engine.draft engine.scopes.owners draft (engine.scopes.push id).owners := by
  obtain rfl : draft = (engine.draft.declare engine.scopes.top name).1 := by rw [declared]
  obtain rfl : id = (engine.draft.declare engine.scopes.top name).2 := by rw [declared]
  exact Moves.stay.enter named live

theorem Accepted.moves (layered : engine.Layered) (accepted : Accepted engine event next)
    (inside : event ≠ .documentStart) :
    Moves engine.draft engine.scopes.owners next.draft next.scopes.owners := by
  cases accepted with
  | documentStart closed => exact absurd rfl inside
  | documentEnd active noList flat =>
    exact settled_moves layered.named (layered.settles_of_flat noList flat).2
  | bareStart active noList nothing => exact .stay
  | keyedStart active noList held named live declared => exact declared_moves named live declared
  | bareEnd active noList innermost settles => exact settled_moves layered.named settles
  | keyedEnd active noList innermost scope settles =>
    have settled := settled_moves layered.named settles
    rw [settled_scopes, scope] at settled
    rw [scope]
    exact settled.leave
  | listStart active noList held named live declared => exact declared_moves named live declared
  | listEnd active list scope =>
    rw [scope]
    exact Moves.stay.leave
  | key active noList named settles => exact settled_moves layered.named settles
  | @entry raw name owner active list named top live ownerHeld =>
    obtain ⟨owners, scope⟩ := List.head?_eq_some_iff.mp top
    have around : engine.scopes.parent = owners.head? := by
      rw [ScopeStack.parent, scope, List.getElem?_cons_succ, List.head?_eq_getElem?]
    rw [around] at live ownerHeld
    show Moves engine.draft engine.scopes.owners
      (engine.draft.addEntry engine.scopes.parent owner name) engine.scopes.owners
    rw [around, scope]
    exact Moves.stay.entry named live ownerHeld

theorem Accepted.active (accepted : Accepted engine event next) (inside : event ≠ .documentStart) :
    engine.phase = .active := by
  cases accepted with
  | documentStart closed => exact absurd rfl inside
  | _ => assumption

/-! ## Documents -/

/-- The graph of an open document, with its open scopes, has been read from nothing. -/
theorem Reached.moves (reached : Reached Closed engine) (active : engine.phase = .active) :
    Moves .empty [] engine.draft engine.scopes.owners := by
  induction reached with
  | initial => cases active
  | @feed engine event reached ih =>
    have layered := reached.layered
    obtain ⟨next, accepted⟩ | ⟨cause, left, refused⟩ := accepted_or_refused layered event
    · rw [feed_of_accepted layered accepted]
      -- A document that starts has nothing of the one before it.
      by_cases start : event = .documentStart
      · subst start
        cases accepted
        exact .stay
      · exact (ih (accepted.active start)).trans (accepted.moves layered start)
    · rw [feed_of_refused layered refused] at active
      cases active
  | release _ closed => exact absurd active closed.not_active

/-- When a document ends, no scope is open. -/
theorem Reached.completed_moves (reached : Reached Closed engine)
    (ended : engine.feed .documentEnd = (next, .ok .documentDone)) :
    Moves .empty [] next.draft [] := by
  have layered := reached.layered
  obtain ⟨done, accepted⟩ | ⟨cause, left, refused⟩ := accepted_or_refused layered .documentEnd
  · have last := accepted.moves layered nofun
    rw [feed_of_accepted layered accepted] at ended
    cases ended
    cases accepted with
    | documentEnd active noList flat =>
      have closed := (layered.settles_of_flat noList flat).1
      have owners : engine.settled.scopes.owners = [] := by
        rw [settled_scopes]
        exact List.length_eq_zero_iff.mp closed
      exact owners ▸ (reached.moves active).trans last
  · rw [feed_of_refused layered refused] at ended
    cases ended

/-! ## Stores -/

theorem Refused.built (refused : Refused engine event cause next) (built : engine.store.Built) :
    next.store.Built := by
  cases refused with
  | @staleOwner raw name owner placed id active list named top live resolved unknown =>
    obtain rfl : placed = (engine.draft.placeEntry engine.scopes.parent name).1 := by rw [resolved]
    show (engine.draft.placeEntry engine.scopes.parent name).1.store.Built
    exact Draft.placeEntry_built built named
  | _ => exact built

/-- Whenever the store is taken, calls could have built the one that is there. -/
theorem Reached.built (reached : Reached mayRelease engine) : engine.store.Built := by
  induction reached with
  | initial => exact .empty
  | @feed engine event reached built =>
    have layered := reached.layered
    obtain ⟨next, accepted⟩ | ⟨cause, left, refused⟩ := accepted_or_refused layered event
    · rw [feed_of_accepted layered accepted]
      by_cases start : event = .documentStart
      · subst start
        cases accepted
        exact .empty
      · exact (accepted.moves layered start).built built
    · rw [feed_of_refused layered refused]
      exact refused.built built
  | release => exact .empty

/-- Usages do not depend on the order in which a graph came about: calls on a store and events may
come in any order and fail, and the store may be taken at any time. -/
theorem usage_follows_graph :
    (∀ store : Store, store.Built → store.UsageFollowsGraph) ∧
    ∀ engine, Reached (fun _ => True) engine → engine.store.UsageFollowsGraph :=
  ⟨fun _ built => built.coherent.usageFollowsGraph,
    fun _ reached => reached.built.coherent.usageFollowsGraph⟩

/-- A list names its own owner and twice a target with a mark. Then the store is taken, and the
next entry is refused but leaves a target that nothing depends on. -/
theorem usage_follows_graph_taken :
    let events := [Event.documentStart, .scalar "log", .scalar "app", .listStart, .scalar "tool*",
      .scalar "app", .scalar "tool"]
    let listed := events.foldl (fun engine event => (engine.feed event).1) initial
    let left := (listed.release.2.feed (.scalar "gui")).1
    listed.store = ⟨[⟨0, "log", .executable, none, [], true⟩,
      ⟨1, "app", .library, none, [2, 1, 2], true⟩,
      ⟨2, "tool", .executable, some .executable, [], false⟩]⟩ ∧
    left.store = ⟨[⟨0, "gui", .executable, none, [], false⟩]⟩ ∧
    listed.store.UsageFollowsGraph ∧ left.store.UsageFollowsGraph := by
  intro events listed left
  have reached : Reached (fun _ => True) listed :=
    .feed _ (.feed _ (.feed _ (.feed _ (.feed _ (.feed _ (.feed _ .initial))))))
  have taken : Reached (fun _ => True) left := .feed _ (.release reached trivial)
  obtain ⟨ofStores, ofEngines⟩ := usage_follows_graph
  exact ⟨rfl, rfl, ofStores _ reached.built, ofEngines left taken⟩

end BuildGraph.Engine
