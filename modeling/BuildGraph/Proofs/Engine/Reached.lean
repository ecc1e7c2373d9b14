import BuildGraph.Proofs.Engine.Step

/-! What holds of every engine that a caller can bring about.

Events may come in any order. When the store may be taken away is a parameter: the scopes
follow the open mappings in any case, and the numbers in them are held by the store as
long as nobody takes it out of an open document.
-/

set_option autoImplicit false

namespace BuildGraph.Engine

inductive Reached (mayRelease : Engine → Prop) : Engine → Prop where
  | initial : Reached mayRelease initial
  | feed {engine : Engine} (event : Event) (reached : Reached mayRelease engine) :
      Reached mayRelease (engine.feed event).1
  | release {engine : Engine} (reached : Reached mayRelease engine) (allowed : mayRelease engine) :
      Reached mayRelease engine.release.2

/-- No document is open, as far as can be told from outside. -/
def Closed (engine : Engine) : Prop := engine.state = .idle ∨ engine.state = .aborted

structure Sound (engine : Engine) : Prop extends Layered engine where
  owners : engine.phase = .active → ∀ owner ∈ engine.scopes.owners, owner < engine.store.size
  globals : engine.phase = .active → engine.draft.Grounded

variable {engine next : Engine} {event : Event} {cause : EngineError}
  {mayRelease : Engine → Prop}

/-! ## Scopes follow the open mappings -/

theorem Layered.initial : Engine.initial.Layered := ⟨rfl, nofun, nofun⟩

theorem Layered.settled (layered : engine.Layered) : engine.settled.Layered := by
  have taken := settled_held layered.named
  exact ⟨by simpa using layered.depth, by simp [HeldNamed, taken], by simp [taken]⟩

theorem Layered.accepted (layered : engine.Layered) (accepted : Accepted engine event next) :
    next.Layered := by
  have depth := layered.depth
  have settled := layered.settled
  cases accepted with
  | documentStart closed => exact ⟨rfl, nofun, nofun⟩
  | documentEnd active noList flat => exact ⟨settled.depth, settled.named, settled.alone⟩
  | bareStart active noList nothing => exact ⟨by simpa using depth, layered.named, layered.alone⟩
  | keyedStart active noList held named live declared =>
    simp only [ScopeStack.depth] at depth
    refine ⟨?_, nofun, fun _ => rfl⟩
    simp [ScopeStack.depth, ScopeStack.push]
    omega
  | bareEnd active noList innermost settles =>
    exact ⟨by simpa [innermost] using depth, settled.named, settled.alone⟩
  | keyedEnd active noList innermost scope settles =>
    simp only [ScopeStack.depth, scope, innermost, List.length_cons, List.count_cons_self]
      at depth
    refine ⟨?_, settled.named, settled.alone⟩
    simp [ScopeStack.depth]
    omega
  | listStart active noList held named live declared =>
    simp only [ScopeStack.depth, noList] at depth
    exact ⟨by simpa [ScopeStack.depth, ScopeStack.push] using depth, nofun, fun _ => rfl⟩
  | listEnd active list scope =>
    simp only [ScopeStack.depth, scope, list, List.length_cons] at depth
    exact ⟨by simpa [ScopeStack.depth] using depth, layered.named, nofun⟩
  | key active noList named settles =>
    refine ⟨by simpa using depth, ?_, by simp [noList]⟩
    intro raw held
    cases held
    exact ⟨_, named⟩
  | entry active list named top live ownerHeld =>
    exact ⟨depth, layered.named, layered.alone⟩

/-- A refusal may take the key held back and may add to the graph, and no more. -/
theorem Layered.refused (layered : engine.Layered) (refused : Refused engine event cause next) :
    ({ next with phase := .aborted } : Engine).Layered := by
  cases refused with
  | staleScope active noList held top unknown reading =>
    exact ⟨layered.depth, nofun, fun _ => rfl⟩
  | _ => exact ⟨layered.depth, layered.named, layered.alone⟩

theorem Layered.feed (layered : engine.Layered) (event : Event) :
    (engine.feed event).1.Layered := by
  obtain ⟨next, accepted⟩ | ⟨cause, next, refused⟩ := accepted_or_refused layered event
  · rw [feed_of_accepted layered accepted]
    exact layered.accepted accepted
  · rw [feed_of_refused layered refused]
    exact layered.refused refused

theorem Layered.release (layered : engine.Layered) : engine.release.2.Layered :=
  ⟨layered.depth, layered.named, layered.alone⟩

theorem Reached.layered (reached : Reached mayRelease engine) : engine.Layered := by
  induction reached with
  | initial => exact .initial
  | feed event _ layered => exact layered.feed event
  | release _ _ layered => exact layered.release

theorem Layered.refused_of_feed (layered : engine.Layered)
    (failed : engine.feed event = (next, .error cause)) :
    ∃ left, Refused engine event cause left ∧ next = { left with phase := .aborted } := by
  obtain ⟨other, accepted⟩ | ⟨other, left, refused⟩ := accepted_or_refused layered event
  · rw [feed_of_accepted layered accepted] at failed
    cases failed
  · rw [feed_of_refused layered refused] at failed
    cases failed
    exact ⟨left, refused, rfl⟩

/-! ## The store holds what the engine refers to -/

theorem Sound.initial : Engine.initial.Sound := ⟨.initial, nofun, nofun⟩

theorem Sound.top_live (sound : engine.Sound) (active : engine.phase = .active) :
    engine.draft.Live engine.scopes.top :=
  fun _ top => sound.owners active _ (List.mem_of_head? top)

theorem Sound.parent_live (sound : engine.Sound) (active : engine.phase = .active) :
    engine.draft.Live engine.scopes.parent :=
  fun _ parent => sound.owners active _ (List.mem_of_getElem? parent)

theorem Sound.settles (sound : engine.Sound) (active : engine.phase = .active) : engine.Settles :=
  .inr (sound.top_live active)

theorem Sound.settled (sound : engine.Sound) : engine.settled.Sound where
  toLayered := sound.toLayered.settled
  owners := by
    intro active owner member
    rw [settled_phase] at active
    rw [settled_scopes] at member
    exact Nat.lt_of_lt_of_le (sound.owners active owner member) engine.size_le_settled
  globals := by
    intro active
    rw [settled_phase] at active
    exact settled_grounded (sound.globals active)

/-- A declared key can own a scope. -/
theorem Sound.declared {name : TargetName} {draft : Draft} {id : TargetId} (sound : engine.Sound)
    (active : engine.phase = .active)
    (declared : engine.draft.declare engine.scopes.top name = (draft, id)) :
    (∀ owner ∈ (engine.scopes.push id).owners, owner < draft.store.size) ∧ draft.Grounded := by
  obtain rfl : draft = (engine.draft.declare engine.scopes.top name).1 := by rw [declared]
  obtain rfl : id = (engine.draft.declare engine.scopes.top name).2 := by rw [declared]
  refine ⟨?_, (sound.globals active).declare⟩
  intro owner member
  obtain rfl | outer := List.mem_cons.mp member
  · exact Draft.declare_lt _ _ _
  · exact Nat.lt_of_lt_of_le (sound.owners active owner outer)
      (Draft.size_le_declare engine.draft _ _)

theorem Sound.accepted (sound : engine.Sound) (accepted : Accepted engine event next) :
    next.Sound := by
  have layered := sound.toLayered.accepted accepted
  have settled := sound.settled
  cases accepted with
  | documentStart closed => exact ⟨layered, fun _ => nofun, fun _ => nofun⟩
  | documentEnd active noList flat => exact ⟨layered, nofun, nofun⟩
  | bareStart active noList nothing => exact ⟨layered, sound.owners, sound.globals⟩
  | keyedStart active noList held named live declared =>
    obtain ⟨owners, globals⟩ := sound.declared active declared
    exact ⟨layered, fun _ => owners, fun _ => globals⟩
  | bareEnd active noList innermost settles => exact ⟨layered, settled.owners, settled.globals⟩
  | keyedEnd active noList innermost scope settles =>
    refine ⟨layered, fun stillActive owner member => ?_, settled.globals⟩
    apply settled.owners stillActive
    rw [settled_scopes, scope]
    exact List.mem_cons_of_mem _ member
  | listStart active noList held named live declared =>
    obtain ⟨owners, globals⟩ := sound.declared active declared
    exact ⟨layered, fun _ => owners, fun _ => globals⟩
  | listEnd active list scope =>
    refine ⟨layered, fun _ owner member => ?_, sound.globals⟩
    apply sound.owners active
    rw [scope]
    exact List.mem_cons_of_mem _ member
  | key active noList named settles => exact ⟨layered, settled.owners, settled.globals⟩
  | entry active list named top live ownerHeld =>
    refine ⟨layered, fun _ owner member => ?_, fun _ => (sound.globals active).addEntry⟩
    exact Nat.lt_of_lt_of_le (sound.owners active owner member)
      (Draft.size_le_addEntry engine.draft _ _ _)

theorem Sound.feed (sound : engine.Sound) (event : Event) : (engine.feed event).1.Sound := by
  obtain ⟨next, accepted⟩ | ⟨cause, next, refused⟩ := accepted_or_refused sound.toLayered event
  · rw [feed_of_accepted sound.toLayered accepted]
    exact sound.accepted accepted
  · rw [feed_of_refused sound.toLayered refused]
    exact ⟨sound.toLayered.refused refused, nofun, nofun⟩

theorem Closed.not_active (closed : engine.Closed) : engine.phase ≠ .active := by
  intro active
  simp only [Closed, state, active] at closed
  split at closed
  · simp at closed
  · split at closed <;> simp at closed

theorem Reached.sound (reached : Reached Closed engine) : engine.Sound := by
  induction reached with
  | initial => exact .initial
  | feed event _ sound => exact sound.feed event
  | release _ closed sound =>
    -- Outside of a document nothing is said about the numbers, so an empty store will do.
    have shut := closed.not_active
    exact ⟨sound.toLayered.release, fun active => absurd active shut,
      fun active => absurd active shut⟩

end BuildGraph.Engine
