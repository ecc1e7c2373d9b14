import BuildGraph.Proofs.Engine.Keys

/-! What one event can do.

`Accepted` lists the ways in which an event is accepted and `Refused` those in which it is
refused, each with what is left behind. On a layered engine there are no others. A layered
engine is one whose scopes belong to its open mappings and its open list; its store may
have been taken away.
-/

set_option autoImplicit false

namespace BuildGraph

def Event.progress : Event → Progress
  | .documentEnd => .documentDone
  | _ => .more

namespace Engine

structure Layered (engine : Engine) : Prop where
  depth : engine.scopes.depth = engine.mappings.count .keyed + engine.listOpen.toNat
  named : engine.HeldNamed
  alone : engine.listOpen = true → engine.held = none

inductive Accepted (engine : Engine) : Event → Engine → Prop where
  | documentStart (closed : engine.phase ≠ .active) :
      Accepted engine .documentStart
        { initial with phase := .active, scopes := engine.scopes.clear }
  | documentEnd (active : engine.phase = .active) (noList : engine.listOpen = false)
      (flat : engine.mappings = []) :
      Accepted engine .documentEnd { engine.settled with phase := .idle }
  | bareStart (active : engine.phase = .active) (noList : engine.listOpen = false)
      (nothing : engine.held = none) :
      Accepted engine .mappingStart { engine with mappings := .bare :: engine.mappings }
  | keyedStart {raw : String} {name : TargetName} {draft : Draft} {id : TargetId}
      (active : engine.phase = .active) (noList : engine.listOpen = false)
      (held : engine.held = some raw) (named : TargetName.ofString raw = .ok name)
      (live : engine.draft.Live engine.scopes.top)
      (declared : engine.draft.declare engine.scopes.top name = (draft, id)) :
      Accepted engine .mappingStart
        { engine.withoutHeld.withDraft draft with
            scopes := engine.scopes.push id, mappings := .keyed :: engine.mappings }
  | bareEnd {outer : List Mapping} (active : engine.phase = .active)
      (noList : engine.listOpen = false) (innermost : engine.mappings = .bare :: outer)
      (settles : engine.Settles) :
      Accepted engine .mappingEnd { engine.settled with mappings := outer }
  | keyedEnd {outer : List Mapping} {owner : TargetId} {owners : List TargetId}
      (active : engine.phase = .active) (noList : engine.listOpen = false)
      (innermost : engine.mappings = .keyed :: outer)
      (scope : engine.scopes.owners = owner :: owners) (settles : engine.Settles) :
      Accepted engine .mappingEnd
        { engine.settled with
            scopes := { engine.scopes with owners := owners }, mappings := outer }
  | listStart {raw : String} {name : TargetName} {draft : Draft} {id : TargetId}
      (active : engine.phase = .active) (noList : engine.listOpen = false)
      (held : engine.held = some raw) (named : TargetName.ofString raw = .ok name)
      (live : engine.draft.Live engine.scopes.top)
      (declared : engine.draft.declare engine.scopes.top name = (draft, id)) :
      Accepted engine .listStart
        { engine.withoutHeld.withDraft draft with
            scopes := engine.scopes.push id, listOpen := true }
  | listEnd {owner : TargetId} {owners : List TargetId}
      (active : engine.phase = .active) (list : engine.listOpen = true)
      (scope : engine.scopes.owners = owner :: owners) :
      Accepted engine .listEnd
        { engine with scopes := { engine.scopes with owners := owners }, listOpen := false }
  | key {raw : String} {name : TargetName} (active : engine.phase = .active)
      (noList : engine.listOpen = false) (named : TargetName.ofString raw = .ok name)
      (settles : engine.Settles) :
      Accepted engine (.scalar raw) { engine.settled with held := some raw }
  | entry {raw : String} {name : TargetName} {owner : TargetId}
      (active : engine.phase = .active) (list : engine.listOpen = true)
      (named : TargetName.ofString raw = .ok name) (top : engine.scopes.top = some owner)
      (live : engine.draft.Live engine.scopes.parent)
      (ownerHeld : owner < (engine.draft.placeEntry engine.scopes.parent name).1.store.size) :
      Accepted engine (.scalar raw)
        (engine.withDraft (engine.draft.addEntry engine.scopes.parent owner name))

/-- The causes are those of an event out of order or of a name, except in the last three
ways. These need a scope whose owner is not in the store. -/
inductive Refused (engine : Engine) : Event → EngineError → Engine → Prop where
  | aborted {event : Event} (aborted : engine.phase = .aborted) (other : event ≠ .documentStart) :
      Refused engine event .aborted engine
  | noDocument {event : Event} (idle : engine.phase = .idle) (other : event ≠ .documentStart) :
      Refused engine event (.outOfOrder event.kind .noDocument) engine
  | documentStillOpen (active : engine.phase = .active) :
      Refused engine .documentStart (.outOfOrder .documentStart .documentStillOpen) engine
  | listStillOpen {event : Event} (active : engine.phase = .active) (list : engine.listOpen = true)
      (closing : event = .documentEnd ∨ event = .mappingEnd) :
      Refused engine event (.outOfOrder event.kind .listStillOpen) engine
  | mappingsStillOpen (active : engine.phase = .active) (noList : engine.listOpen = false)
      (nested : engine.mappings ≠ []) :
      Refused engine .documentEnd (.outOfOrder .documentEnd .mappingsStillOpen) engine
  | namesOnly (active : engine.phase = .active) (list : engine.listOpen = true) :
      Refused engine .mappingStart (.outOfOrder .mappingStart .namesOnly) engine
  | noMapping (active : engine.phase = .active) (noList : engine.listOpen = false)
      (flat : engine.mappings = []) :
      Refused engine .mappingEnd (.outOfOrder .mappingEnd .noMapping) engine
  | nestedList (active : engine.phase = .active) (list : engine.listOpen = true) :
      Refused engine .listStart (.outOfOrder .listStart .nestedList) engine
  | listWithoutName (active : engine.phase = .active) (noList : engine.listOpen = false)
      (nothing : engine.held = none) :
      Refused engine .listStart (.outOfOrder .listStart .listWithoutName) engine
  | noList (active : engine.phase = .active) (noList : engine.listOpen = false) :
      Refused engine .listEnd (.outOfOrder .listEnd .noList) engine
  | name {raw : String} {cause : NameError} (active : engine.phase = .active)
      (refused : TargetName.ofString raw = .error cause) :
      Refused engine (.scalar raw) (.name cause) engine
  | staleScope {event : Event} {raw : String} {owner : TargetId}
      (active : engine.phase = .active) (noList : engine.listOpen = false)
      (held : engine.held = some raw) (top : engine.scopes.top = some owner)
      (unknown : engine.store.size ≤ owner)
      (reading : event = .mappingStart ∨ event = .listStart ∨
        event = .mappingEnd ∧ engine.mappings ≠ [] ∨
        ∃ other name, event = .scalar other ∧ TargetName.ofString other = .ok name) :
      Refused engine event (.store (.unknown owner engine.store.size)) engine.withoutHeld
  | staleParent {raw : String} {name : TargetName} {owner parent : TargetId}
      (active : engine.phase = .active) (list : engine.listOpen = true)
      (named : TargetName.ofString raw = .ok name) (top : engine.scopes.top = some owner)
      (above : engine.scopes.parent = some parent) (unknown : engine.store.size ≤ parent) :
      Refused engine (.scalar raw) (.store (.unknown parent engine.store.size)) engine
  | staleOwner {raw : String} {name : TargetName} {owner : TargetId} {placed : Draft}
      {id : TargetId} (active : engine.phase = .active) (list : engine.listOpen = true)
      (named : TargetName.ofString raw = .ok name) (top : engine.scopes.top = some owner)
      (live : engine.draft.Live engine.scopes.parent)
      (resolved : engine.draft.placeEntry engine.scopes.parent name = (placed, id))
      (unknown : placed.store.size ≤ owner) :
      Refused engine (.scalar raw) (.store (.unknown owner placed.store.size))
        (engine.withDraft placed)

variable {engine next : Engine} {event : Event} {cause : EngineError} {raw : String}
  {name : TargetName} {owner : TargetId} {draft : Draft} {id : TargetId}

/-! ## The steps of the engine -/

theorem feed_of_step_ok {progress : Progress} (ran : step event engine = .ok progress next) :
    engine.feed event = (next, .ok progress) := by
  simp [feed, ran]

theorem feed_of_step_error (ran : step event engine = .error cause next) :
    engine.feed event = ({ next with phase := .aborted }, .error cause) := by
  simp [feed, ran]

/-- At the end of a document no scope is open, so the last key can be read. -/
theorem Layered.settles_of_flat (layered : engine.Layered) (noList : engine.listOpen = false)
    (flat : engine.mappings = []) : engine.scopes.depth = 0 ∧ engine.Settles := by
  have depth : engine.scopes.depth = 0 := by simp [layered.depth, noList, flat]
  refine ⟨depth, .inr ?_⟩
  intro owner top
  rw [ScopeStack.top, List.length_eq_zero_iff.mp depth] at top
  cases top

theorem feed_of_accepted (layered : engine.Layered) (accepted : Accepted engine event next) :
    engine.feed event = (next, .ok event.progress) := by
  apply feed_of_step_ok
  cases accepted with
  | documentStart closed =>
    cases phase : engine.phase <;> simp_all [step, openDocument, Event.progress]
  | documentEnd active noList flat =>
    obtain ⟨depth, settles⟩ := layered.settles_of_flat noList flat
    simp [step, active, closeDocument, noList, flat, depth, settle_eq layered.named settles,
      Event.progress]
  | bareStart active noList nothing =>
    have same : engine.withoutHeld = engine := by rw [withoutHeld, ← nothing]
    simp [step, active, openMapping, noList, nothing, same, Event.progress]
  | keyedStart active noList held named live declared =>
    have read : declareKey _ engine.withoutHeld = .ok _ _ := declareKey_eq named live
    simp only [withoutHeld_draft, withoutHeld_scopes, declared] at read
    simp [step, active, openMapping, noList, held, read, Event.progress]
  | bareEnd active noList innermost settles =>
    simp [step, active, closeMapping, noList, innermost, settle_eq layered.named settles,
      Event.progress]
  | keyedEnd active noList innermost scope settles =>
    have popped : closeScope engine.settled = .ok _ _ :=
      closeScope_apply (by rw [settled_scopes, scope])
    simp [step, active, closeMapping, noList, innermost, settle_eq layered.named settles, popped,
      Event.progress]
  | listStart active noList held named live declared =>
    have read : declareKey _ engine.withoutHeld = .ok _ _ := declareKey_eq named live
    simp only [withoutHeld_draft, withoutHeld_scopes, declared] at read
    simp [step, active, openList, noList, held, read, Event.progress]
  | listEnd active list scope =>
    simp [step, active, closeList, list, closeScope_apply scope, Event.progress]
  | key active noList named settles =>
    simp [step, active, scalar, named, noList, settle_eq layered.named settles, Event.progress]
  | entry active list named top live ownerHeld =>
    simp [step, active, scalar, named, list, addEntry_eq top live ownerHeld, Event.progress]

theorem feed_of_refused (layered : engine.Layered) (refused : Refused engine event cause next) :
    engine.feed event = ({ next with phase := .aborted }, .error cause) := by
  apply feed_of_step_error
  cases refused with
  | aborted aborted other => cases event <;> simp_all [step]
  | noDocument idle other => cases event <;> simp_all [step]
  | documentStillOpen active => simp [step, active, openDocument]
  | listStillOpen active list closing =>
    obtain rfl | rfl := closing <;>
      simp [step, active, closeDocument, closeMapping, list, Event.kind]
  | mappingsStillOpen active noList nested => simp [step, active, closeDocument, noList, nested]
  | namesOnly active list => simp [step, active, openMapping, list]
  | noMapping active noList flat => simp [step, active, closeMapping, noList, flat]
  | nestedList active list => simp [step, active, openList, list]
  | listWithoutName active noList nothing =>
    have same : engine.withoutHeld = engine := by rw [withoutHeld, ← nothing]
    simp [step, active, openList, noList, nothing, same]
  | noList active noList => simp [step, active, closeList, noList]
  | name active refused => simp [step, active, scalar, refused]
  | staleScope active noList held top unknown reading =>
    obtain ⟨name, named⟩ := layered.named _ held
    have read : declareKey _ engine.withoutHeld = .error _ _ := declareKey_stale named top unknown
    have settled := settle_stale held named top unknown
    obtain rfl | rfl | ⟨rfl, nested⟩ | ⟨other, otherName, rfl, otherNamed⟩ := reading
    · simp [step, active, openMapping, noList, held, read]
      rfl
    · simp [step, active, openList, noList, held, read]
      rfl
    · obtain ⟨mapping, outer, mappings⟩ := List.exists_cons_of_ne_nil nested
      simp [step, active, closeMapping, noList, mappings, settled]
    · simp [step, active, scalar, noList, otherNamed, settled]
  | staleParent active list named top above unknown =>
    simp [step, active, scalar, named, list, addEntry_unknown_parent top above unknown]
  | staleOwner active list named top live resolved unknown =>
    have failed := addEntry_unknown_owner top live (by rw [resolved]; exact unknown)
    rw [resolved] at failed
    simp [step, active, scalar, named, list, failed]

/-! ## Nothing else can happen -/

theorem live_or_unknown (engine : Engine) (scope : Option TargetId) :
    engine.draft.Live scope ∨ ∃ owner, scope = some owner ∧ engine.store.size ≤ owner := by
  cases scope with
  | none => exact .inl fun owner none => by cases none
  | some owner =>
    obtain held | unknown := Nat.lt_or_ge owner engine.store.size
    · exact .inl fun other same => by cases same; exact held
    · exact .inr ⟨owner, rfl, unknown⟩

theorem settles_or_stale (engine : Engine) :
    engine.Settles ∨ ∃ raw owner, engine.held = some raw ∧ engine.scopes.top = some owner ∧
      engine.store.size ≤ owner := by
  cases held : engine.held with
  | none => exact .inl (.inl held)
  | some raw =>
    obtain live | ⟨owner, top, unknown⟩ := engine.live_or_unknown engine.scopes.top
    · exact .inl (.inr live)
    · exact .inr ⟨raw, owner, rfl, top, unknown⟩

theorem Layered.owner_of_depth (layered : engine.Layered)
    (opened : 0 < engine.mappings.count .keyed + engine.listOpen.toNat) :
    ∃ owner owners, engine.scopes.owners = owner :: owners := by
  rw [← layered.depth] at opened
  exact List.exists_cons_of_length_pos opened

theorem accepted_or_refused_in_list (layered : engine.Layered) (active : engine.phase = .active)
    (list : engine.listOpen = true) (other : event ≠ .documentStart) :
    (∃ next, Accepted engine event next) ∨ ∃ cause next, Refused engine event cause next := by
  obtain ⟨owner, owners, scope⟩ := layered.owner_of_depth (by simp [list])
  cases event with
  | documentStart => exact absurd rfl other
  | documentEnd => exact .inr ⟨_, _, .listStillOpen active list (.inl rfl)⟩
  | mappingStart => exact .inr ⟨_, _, .namesOnly active list⟩
  | mappingEnd => exact .inr ⟨_, _, .listStillOpen active list (.inr rfl)⟩
  | listStart => exact .inr ⟨_, _, .nestedList active list⟩
  | listEnd => exact .inl ⟨_, .listEnd active list scope⟩
  | scalar raw =>
    -- A name is looked up around the owner before it is linked to the owner.
    have top : engine.scopes.top = some owner := by simp [ScopeStack.top, scope]
    cases named : TargetName.ofString raw with
    | error cause => exact .inr ⟨_, _, .name active named⟩
    | ok name =>
      obtain live | ⟨parent, above, unknown⟩ := engine.live_or_unknown engine.scopes.parent
      · obtain held | unknown := Nat.lt_or_ge owner
          (engine.draft.placeEntry engine.scopes.parent name).1.store.size
        · exact .inl ⟨_, .entry active list named top live held⟩
        · exact .inr ⟨_, _, .staleOwner active list named top live rfl unknown⟩
      · exact .inr ⟨_, _, .staleParent active list named top above unknown⟩

theorem accepted_or_refused_in_body (layered : engine.Layered) (active : engine.phase = .active)
    (noList : engine.listOpen = false) (other : event ≠ .documentStart) :
    (∃ next, Accepted engine event next) ∨ ∃ cause next, Refused engine event cause next := by
  cases event with
  | documentStart => exact absurd rfl other
  | documentEnd =>
    by_cases flat : engine.mappings = []
    · exact .inl ⟨_, .documentEnd active noList flat⟩
    · exact .inr ⟨_, _, .mappingsStillOpen active noList flat⟩
  | mappingStart =>
    cases held : engine.held with
    | none => exact .inl ⟨_, .bareStart active noList held⟩
    | some raw =>
      obtain ⟨name, named⟩ := layered.named raw held
      obtain live | ⟨owner, top, unknown⟩ := engine.live_or_unknown engine.scopes.top
      · exact .inl ⟨_, .keyedStart active noList held named live rfl⟩
      · exact .inr ⟨_, _, .staleScope active noList held top unknown (.inl rfl)⟩
  | mappingEnd =>
    cases innermost : engine.mappings with
    | nil => exact .inr ⟨_, _, .noMapping active noList innermost⟩
    | cons mapping outer =>
      obtain settles | ⟨raw, owner, held, top, unknown⟩ := engine.settles_or_stale
      · cases mapping with
        | bare => exact .inl ⟨_, .bareEnd active noList innermost settles⟩
        | keyed =>
          obtain ⟨owner, owners, scope⟩ := layered.owner_of_depth (by simp [innermost, noList])
          exact .inl ⟨_, .keyedEnd active noList innermost scope settles⟩
      · have nested : engine.mappings ≠ [] := by simp [innermost]
        exact .inr ⟨_, _, .staleScope active noList held top unknown
          (.inr (.inr (.inl ⟨rfl, nested⟩)))⟩
  | listStart =>
    cases held : engine.held with
    | none => exact .inr ⟨_, _, .listWithoutName active noList held⟩
    | some raw =>
      obtain ⟨name, named⟩ := layered.named raw held
      obtain live | ⟨owner, top, unknown⟩ := engine.live_or_unknown engine.scopes.top
      · exact .inl ⟨_, .listStart active noList held named live rfl⟩
      · exact .inr ⟨_, _, .staleScope active noList held top unknown (.inr (.inl rfl))⟩
  | listEnd => exact .inr ⟨_, _, .noList active noList⟩
  | scalar raw =>
    cases named : TargetName.ofString raw with
    | error cause => exact .inr ⟨_, _, .name active named⟩
    | ok name =>
      obtain settles | ⟨waiting, owner, held, top, unknown⟩ := engine.settles_or_stale
      · exact .inl ⟨_, .key active noList named settles⟩
      · exact .inr ⟨_, _, .staleScope active noList held top unknown
          (.inr (.inr (.inr ⟨raw, name, rfl, named⟩)))⟩

theorem accepted_or_refused (layered : engine.Layered) (event : Event) :
    (∃ next, Accepted engine event next) ∨ ∃ cause next, Refused engine event cause next := by
  by_cases start : event = .documentStart
  · subst start
    by_cases active : engine.phase = .active
    · exact .inr ⟨_, _, .documentStillOpen active⟩
    · exact .inl ⟨_, .documentStart active⟩
  cases phase : engine.phase with
  | idle => exact .inr ⟨_, _, .noDocument phase start⟩
  | aborted => exact .inr ⟨_, _, .aborted phase start⟩
  | active =>
    cases list : engine.listOpen with
    | true => exact accepted_or_refused_in_list layered phase list start
    | false => exact accepted_or_refused_in_body layered phase list start

end Engine

end BuildGraph
