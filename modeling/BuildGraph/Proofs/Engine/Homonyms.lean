import BuildGraph.Proofs.Engine.Confinement
import BuildGraph.Proofs.Engine.Drive
import BuildGraph.Proofs.Engine.Moves
import BuildGraph.Proofs.Engine.Refusal
import Mathlib.Data.List.Pairwise

/-! Targets of one name.

Two targets of one name were never created in the same scope. One dependency list may hold both
all the same: the entries of a list are looked up around the list's owner and among the global
names, not among what the owner already depends on. Keys bring no such pair about.
-/

set_option autoImplicit false

namespace BuildGraph

namespace Store

def DistinctNames (store : Store) : Prop :=
  ∀ owner first second, store.DependsOn owner first → store.DependsOn owner second →
    store.name? first = store.name? second → first = second

structure Homonyms (store : Store) (owner first second : TargetId) : Prop where
  different : first ≠ second
  listed : store.DependsOn owner first
  listedToo : store.DependsOn owner second
  same : store.name? first = store.name? second

theorem distinctNames_iff {store : Store} :
    store.DistinctNames ↔ ∀ owner first second, ¬ store.Homonyms owner first second := by
  constructor
  · rintro distinct owner first second ⟨different, listed, listedToo, same⟩
    exact different (distinct owner first second listed listedToo same)
  · intro none owner first second listed listedToo same
    by_contra different
    exact none owner first second ⟨different, listed, listedToo, same⟩

end Store

namespace Draft

variable {draft : Draft} {scope : Option TargetId} {name : TargetName} {creators : Creators}
  {first second owner : TargetId}

/-! ## Keys -/

section Create

variable (closed : ∀ {owner id}, draft.store.DependsOn owner id → id < draft.store.size)

include closed

theorem name?_create_ne
    (fresh : draft.store.find? (draft.members (some owner)) name.cleaned = none)
    (edge : draft.store.DependsOn owner first) :
    (draft.create scope name).store.name? first ≠
      (draft.create scope name).store.name? draft.store.size := by
  rw [create_name?, Store.name?_push_self, Store.name?_push_of_lt (closed edge)]
  exact Store.find?_eq_none_iff.mp fresh first edge

theorem create_homonyms (live : draft.Live scope)
    (fresh : draft.store.find? (draft.members scope) name.cleaned = none)
    (pair : (draft.create scope name).store.Homonyms owner first second) :
    draft.store.Homonyms owner first second := by
  obtain ⟨different, listed, listedToo, same⟩ := pair
  -- Each of the two edges was there before or is the one to the new target.
  obtain old | ⟨rfl, rfl⟩ := (create_dependsOn live).mp listed <;>
    obtain oldToo | ⟨new, rfl⟩ := (create_dependsOn live).mp listedToo
  · rw [create_name?, Store.name?_push_of_lt (closed old),
      Store.name?_push_of_lt (closed oldToo)] at same
    exact ⟨different, old, oldToo, same⟩
  · subst new
    exact absurd same (name?_create_ne closed fresh old)
  · exact absurd same.symm (name?_create_ne closed fresh oldToo)
  · exact absurd rfl different

theorem declare_homonyms (live : draft.Live scope) (name : TargetName)
    (pair : (draft.declare scope name).1.store.Homonyms owner first second) :
    draft.store.Homonyms owner first second := by
  have placed : (draft.place scope name).1.store.Homonyms owner first second := by
    obtain ⟨different, listed, listedToo, same⟩ := pair
    simp only [declare, Store.dependsOn_declare, Store.name?_declare] at listed listedToo same
    exact ⟨different, listed, listedToo, same⟩
  unfold place at placed
  split at placed
  · exact placed
  · next fresh => exact create_homonyms closed live fresh placed

end Create

/-! ## Creators -/

/-- A scope creates no two targets of one name, and neither does the document itself. -/
theorem Confined.eq_of_name? (confined : draft.Confined creators)
    (held : first < draft.store.size) (heldToo : second < draft.store.size)
    (together : creators.of first = creators.of second)
    (same : draft.store.name? first = draft.store.name? second) : first = second := by
  cases created : creators.of first with
  | some creator => exact confined.named created (together ▸ created) same
  | none =>
    have member := (confined.global held).mpr created
    have memberToo := (confined.global heldToo).mpr (together ▸ created)
    have : Std.Symm fun first second => draft.store.name? first ≠ draft.store.name? second :=
      ⟨fun _ _ => Ne.symm⟩
    by_cases equal : first = second
    · exact equal
    · exact absurd same (confined.distinct.forall member memberToo equal)

end Draft

namespace Engine

variable {engine next last : Engine} {event : Event} {creators : Creators}
  {front back : List Event}

def recordAll (engine : Engine) (creators : Creators) : List Event → Creators
  | [] => creators
  | event :: rest => (engine.feed event).1.recordAll (engine.record event creators) rest

theorem Recorded.drive {events : List Event} (recorded : Recorded engine creators)
    (driven : engine.drive events = .ok last) :
    Recorded last (engine.recordAll creators events) := by
  induction events generalizing engine creators with
  | nil =>
    cases driven
    exact recorded
  | cons event rest ih =>
    obtain ⟨middle, accepted, driven⟩ := recorded.reached.layered.accepted_of_drive driven
    have fed := recorded.feed event
    rw [recordAll]
    rw [feed_of_accepted recorded.reached.layered accepted] at fed ⊢
    exact ih fed driven

theorem recordAll_append (layered : engine.Layered) (driven : engine.drive front = .ok last) :
    engine.recordAll creators (front ++ back) =
      last.recordAll (engine.recordAll creators front) back := by
  induction front generalizing engine creators with
  | nil =>
    cases driven
    rfl
  | cons event rest ih =>
    obtain ⟨middle, accepted, driven⟩ := layered.accepted_of_drive driven
    rw [List.cons_append, recordAll, recordAll, feed_of_accepted layered accepted]
    exact ih (layered.accepted accepted) driven

/-! ## Events outside of lists -/

section Keys

variable {owner first second : TargetId} (sound : engine.Sound)
  (closed : ∀ {owner id}, engine.store.DependsOn owner id → id < engine.store.size)

include sound closed

theorem settled_homonyms (active : engine.phase = .active)
    (pair : engine.settled.store.Homonyms owner first second) :
    engine.store.Homonyms owner first second := by
  unfold settled at pair
  split at pair
  · exact Draft.declare_homonyms closed (sound.top_live active) _ pair
  · exact pair

theorem declared_homonyms {name : TargetName} {draft : Draft} {id : TargetId}
    (active : engine.phase = .active)
    (declared : engine.draft.declare engine.scopes.top name = (draft, id))
    (pair : draft.store.Homonyms owner first second) :
    engine.store.Homonyms owner first second := by
  obtain rfl : draft = (engine.draft.declare engine.scopes.top name).1 := by rw [declared]
  exact Draft.declare_homonyms closed (sound.top_live active) name pair

theorem Accepted.homonyms (accepted : Accepted engine event next)
    (noList : engine.listOpen = false) (pair : next.store.Homonyms owner first second) :
    engine.store.Homonyms owner first second := by
  cases accepted with
  | documentStart closed => exact absurd pair.listed List.not_mem_nil
  | documentEnd active => exact settled_homonyms sound closed active pair
  | bareStart => exact pair
  | keyedStart active _ _ _ _ declared =>
    exact declared_homonyms sound closed active declared pair
  | bareEnd active => exact settled_homonyms sound closed active pair
  | keyedEnd active => exact settled_homonyms sound closed active pair
  | listStart active _ _ _ _ declared =>
    exact declared_homonyms sound closed active declared pair
  | listEnd => exact pair
  | key active => exact settled_homonyms sound closed active pair
  | entry _ list =>
    rw [noList] at list
    cases list

end Keys

theorem feed_homonyms {owner first second : TargetId} (reached : Reached Closed engine)
    (noList : engine.listOpen = false)
    (pair : (engine.feed event).1.store.Homonyms owner first second) :
    engine.store.Homonyms owner first second := by
  have sound := reached.sound
  obtain ⟨next, accepted⟩ | ⟨cause, left, refused⟩ := accepted_or_refused sound.toLayered event
  · rw [feed_of_accepted sound.toLayered accepted] at pair
    exact accepted.homonyms sound reached.built.coherent.closed noList pair
  · rw [feed_of_refused sound.toLayered refused, (sound.refused refused).2] at pair
    exact pair

/-! ## Compilations -/

/-- A compilation may put two targets of one name into one dependency list. Then they were created
in different scopes: of the targets of a project, two that were created in the same scope differ in
their names. Only the entries of lists lead to such a pair: after any other event, each pair that
some dependency list holds was in that list before. -/
theorem homonyms_of_different_scopes :
    (∀ events projects, compile events = .ok projects → ∀ project ∈ projects,
      ∃ front back last, events = front ++ back ∧ initial.drive front = .ok last ∧
        last.state = .idle ∧ project = .ofStore last.store ∧
        ∀ first second, first < project.targets.size → second < project.targets.size →
          (initial.recordAll [] front).of first = (initial.recordAll [] front).of second →
          project.targets.name? first = project.targets.name? second → first = second) ∧
    ∀ engine event, Reached Closed engine → engine.listOpen = false →
      ∀ owner first second, (engine.feed event).1.store.Homonyms owner first second →
        engine.store.Homonyms owner first second := by
  refine ⟨fun events projects compiled project member => ?_,
    fun _ _ reached noList _ _ _ pair => feed_homonyms reached noList pair⟩
  obtain ⟨front, back, last, next, rfl, driven, ended, rfl⟩ :=
    exists_documentEnd_of_compileFrom .initial compiled member
  have recorded := Recorded.initial.drive driven
  have sound := recorded.reached.sound
  obtain ⟨done, accepted⟩ | ⟨cause, left, refused⟩ :=
    accepted_or_refused sound.toLayered .documentEnd
  · rw [feed_of_accepted sound.toLayered accepted] at ended
    cases ended
    have enclosed := Enclosed.accepted sound recorded.enclosed accepted
    have ran : initial.drive (front ++ [.documentEnd]) = .ok next := by
      rw [drive_append_ok driven, drive_of_accepted sound.toLayered accepted]
      rfl
    have idle : next.state = .idle := by
      cases accepted
      rfl
    -- The creators are recorded up to the end of the document, which may still create a key.
    refine ⟨front ++ [.documentEnd], back, next, by simp, ran, idle, rfl, ?_⟩
    rw [recordAll_append .initial driven]
    exact fun first second held heldToo together same =>
      enclosed.confined.eq_of_name? held heldToo together same
  · rw [feed_of_refused sound.toLayered refused] at ended
    cases ended

/-- A key is declared inside of another, which is then read again with a list that names the inner
one. The entry is created as a global name, and the outer target depends on both. -/
theorem listed_homonym :
    let events := [Event.documentStart, .scalar "a", .mappingStart, .scalar "b", .mappingEnd,
      .scalar "a", .listStart, .scalar "b", .listEnd, .documentEnd]
    let store : Store := ⟨[⟨0, "a", .executable, none, [1, 2], true⟩,
      ⟨1, "b", .library, none, [], true⟩, ⟨2, "b", .library, none, [], false⟩]⟩
    compile events = .ok [.ofStore store] ∧ ¬ store.DistinctNames := by
  intro events store
  refine ⟨rfl, fun distinct => ?_⟩
  have same := distinct 0 1 2 (List.mem_of_elem_eq_true rfl) (List.mem_of_elem_eq_true rfl) rfl
  cases same

/-- Nothing but the key around it created the inner target, and the other one was created outside
of every scope. Up to the list all names are distinct. -/
theorem homonyms_of_different_scopes_listed :
    let events := [Event.documentStart, .scalar "a", .mappingStart, .scalar "b", .mappingEnd,
      .scalar "a", .listStart, .scalar "b", .listEnd, .documentEnd]
    let store : Store := ⟨[⟨0, "a", .executable, none, [1, 2], true⟩,
      ⟨1, "b", .library, none, [], true⟩, ⟨2, "b", .library, none, [], false⟩]⟩
    let nested := (((initial.feed .documentStart).1.feed (.scalar "a")).1.feed .mappingStart).1
    compile events = .ok [.ofStore store] ∧
      (∃ front back last, events = front ++ back ∧ initial.drive front = .ok last ∧
        last.store = store ∧
        (initial.recordAll [] front).of 1 ≠ (initial.recordAll [] front).of 2) ∧
      initial.recordAll [] events = [none, some 0, none] ∧
      ((nested.feed (.scalar "b")).1.feed .mappingEnd).1.store.DistinctNames := by
  intro events store nested
  obtain ⟨apart, keeps⟩ := homonyms_of_different_scopes
  have compiled : compile events = .ok [.ofStore store] := rfl
  obtain ⟨front, back, last, split, driven, -, same, unique⟩ :=
    apart events _ compiled _ List.mem_cons_self
  have reached : Reached Closed nested := .feed _ (.feed _ (.feed _ .initial))
  refine ⟨compiled, ⟨front, back, last, split, driven, ?_, fun together => ?_⟩, rfl, ?_⟩
  · exact (Project.mk.inj same).1.symm
  · have equal := unique 1 2 (by decide) (by decide) together rfl
    cases equal
  · refine Store.distinctNames_iff.mpr fun owner first second pair => ?_
    -- Traced back event by event, a pair would be one of the empty store.
    have inner := keeps _ _ reached rfl _ _ _ (keeps _ _ (.feed _ reached) rfl _ _ _ pair)
    have outer := keeps _ _ (.feed _ .initial) rfl _ _ _
      (keeps _ _ (.feed _ (.feed _ .initial)) rfl _ _ _ inner)
    exact absurd (keeps _ _ .initial rfl _ _ _ outer).listed List.not_mem_nil

end Engine

end BuildGraph
