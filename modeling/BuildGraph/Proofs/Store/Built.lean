import BuildGraph.Proofs.Store.Graph

/-! What holds of every store that a caller can bring about.

Calls may come in any order, fail, repeat an edge or close a cycle. The edges stay among the
targets of the store, and the usage of a target is told by its hint and by whether anything
depends on it.
-/

set_option autoImplicit false

namespace BuildGraph.Store

inductive Call where
  | add (name : String)
  | link (owner dependency : TargetId)
  | declare (id : TargetId)
  | clear
  deriving DecidableEq, Repr

/-- The store after a call. A call that fails leaves it as it was. -/
def after (store : Store) : Call → Store
  | .add name =>
    match store.add name with
    | .ok (next, _) => next
    | .error _ => store
  | .link owner dependency =>
    match store.link owner dependency with
    | .ok next => next
    | .error _ => store
  | .declare id =>
    match store.declare id with
    | .ok next => next
    | .error _ => store
  | .clear => .empty

def attempt (store : Store) : Call → Option Store
  | .add name => (store.add name).toOption.map Prod.fst
  | .link owner dependency => (store.link owner dependency).toOption
  | .declare id => (store.declare id).toOption
  | .clear => some .empty

inductive Built : Store → Prop where
  | empty : Built .empty
  | call {store : Store} (built : Built store) (call : Call) : Built (store.after call)

variable {store : Store} {id other owner dependency : TargetId} {name : TargetName}

theorem Built.calls (built : store.Built) (calls : List Call) :
    (calls.foldl after store).Built := by
  induction calls generalizing store with
  | nil => exact built
  | cons call rest ih => exact ih (built.call call)

/-! ## One call -/

theorem link_known {next : Store} (linked : store.link owner dependency = .ok next) :
    owner < store.size ∧ dependency < store.size := by
  obtain held | unknown := Nat.lt_or_ge dependency store.size
  · obtain ownerHeld | unknown := Nat.lt_or_ge owner store.size
    · exact ⟨ownerHeld, held⟩
    · rw [link_unknown_owner unknown held] at linked
      cases linked
  · simp [link, get_of_le unknown] at linked

theorem declare_known {next : Store} (declared : store.declare id = .ok next) :
    id < store.size := by
  obtain held | unknown := Nat.lt_or_ge id store.size
  · exact held
  · simp [declare, get_of_le unknown, Except.map] at declared

theorem attempt_add {raw : String} (named : TargetName.ofString raw = .ok name) :
    store.attempt (.add raw) = some (store.push name) := by
  simp [attempt, add, named, Except.map, Except.toOption]

theorem attempt_link (ownerHeld : owner < store.size) (held : dependency < store.size) :
    store.attempt (.link owner dependency) = some (store.attach owner dependency) := by
  simp [attempt, link_eq_attach ownerHeld held, Except.toOption]

theorem attempt_declare (held : id < store.size) :
    store.attempt (.declare id) = some (store.modify id Target.declare) := by
  simp [attempt, declare_eq_modify held, Except.toOption]

theorem after_eq_attempt (store : Store) (call : Call) :
    store.after call = (store.attempt call).getD store := by
  cases call with
  | add raw =>
    simp only [after, attempt]
    cases store.add raw <;> rfl
  | link owner dependency =>
    simp only [after, attempt]
    cases store.link owner dependency <;> rfl
  | declare id =>
    simp only [after, attempt]
    cases store.declare id <;> rfl
  | clear => rfl

theorem after_of_attempt {call : Call} {next : Store} (called : store.attempt call = some next) :
    store.after call = next := by
  rw [after_eq_attempt, called, Option.getD_some]

theorem Built.of_attempt {call : Call} {next : Store} (built : store.Built)
    (called : store.attempt call = some next) : next.Built :=
  after_of_attempt called ▸ built.call call

theorem Built.push {raw : String} (built : store.Built)
    (named : TargetName.ofString raw = .ok name) : (store.push name).Built :=
  built.of_attempt (attempt_add named)

theorem Built.attach (built : store.Built) (ownerHeld : owner < store.size)
    (held : dependency < store.size) : (store.attach owner dependency).Built :=
  built.of_attempt (attempt_link ownerHeld held)

theorem Built.declare (built : store.Built) (held : id < store.size) :
    (store.modify id Target.declare).Built :=
  built.of_attempt (attempt_declare held)

/-- What holds of the empty store and is kept by what a call does holds of every store. -/
theorem Built.induction {motive : Store → Prop} (empty : motive .empty)
    (push : ∀ store raw name, TargetName.ofString raw = .ok name → motive store →
      motive (store.push name))
    (attach : ∀ store owner dependency, owner < store.size → dependency < store.size →
      motive store → motive (store.attach owner dependency))
    (declare : ∀ store id, id < store.size → motive store →
      motive (store.modify id Target.declare))
    (built : store.Built) : motive store := by
  induction built with
  | empty => exact empty
  | @call store _ call ih =>
    cases call with
    | add name =>
      simp only [after, add]
      cases named : TargetName.ofString name with
      | error cause => exact ih
      | ok split => exact push store name split named ih
    | link owner dependency =>
      simp only [after]
      split
      · next next linked =>
        obtain ⟨ownerHeld, held⟩ := link_known linked
        rw [link_eq_attach ownerHeld held] at linked
        cases linked
        exact attach store owner dependency ownerHeld held ih
      · exact ih
    | declare id =>
      simp only [after]
      split
      · next next declared =>
        have held := declare_known declared
        rw [declare_eq_modify held] at declared
        cases declared
        exact declare store id held ih
      · exact ih
    | clear => exact empty

/-! ## Numbers and names -/

theorem map_targets_modify {α : Type} (view : Target → α) {change : Target → Target}
    (same : ∀ target, view (change target) = view target) :
    (store.modify id change).targets.map view = store.targets.map view := by
  refine List.ext_getElem? fun other => ?_
  rw [List.getElem?_map, List.getElem?_map]
  exact map_get?_modify view same

theorem map_targets_attach {α : Type} (view : Target → α)
    (added : ∀ target, view (target.withDependency dependency) = view target)
    (linked : ∀ target, view target.linkAsLibrary = view target) :
    (store.attach owner dependency).targets.map view = store.targets.map view := by
  rw [Store.attach, map_targets_modify view linked, map_targets_modify view added]

@[simp] theorem id_linkAsLibrary (target : Target) : target.linkAsLibrary.id = target.id := by
  unfold Target.linkAsLibrary
  split <;> rfl

theorem Built.numbered (built : store.Built) : store.targets.map Target.id = store.ids := by
  refine built.induction (motive := fun store => store.targets.map Target.id = store.ids)
    rfl ?_ ?_ ?_
  · intro store raw name _ numbered
    rw [ids, size_push, List.range_succ]
    exact List.map_append.trans (congrArg (· ++ [store.size]) numbered)
  · intro store owner dependency _ _ numbered
    rw [map_targets_attach Target.id (fun _ => rfl) id_linkAsLibrary, numbered, ids, ids,
      size_attach]
  · intro store id _ numbered
    have same : ∀ target : Target, target.declare.id = target.id := fun _ => rfl
    rw [map_targets_modify Target.id same, numbered, ids, ids, size_modify]

theorem Built.id_eq (built : store.Built) {target : Target} (held : store.get? id = some target) :
    target.id = id := by
  have placed : (store.targets.map Target.id)[id]? = some target.id := by
    rw [List.getElem?_map]
    exact congrArg (Option.map Target.id) held
  rw [built.numbered, ids, List.getElem?_range (lt_of_get? held)] at placed
  exact (Option.some.inj placed).symm

def names (store : Store) : List TargetName :=
  store.targets.map fun target => ⟨target.hint, target.name⟩

@[simp] theorem names_attach (store : Store) (owner dependency : TargetId) :
    (store.attach owner dependency).names = store.names :=
  map_targets_attach _ (fun _ => rfl) fun target => by simp

@[simp] theorem names_declare (store : Store) (id : TargetId) :
    (store.modify id Target.declare).names = store.names :=
  map_targets_modify _ fun _ => rfl

/-- Every name was split off from a raw one, together with its hint. -/
theorem Built.spelled (built : store.Built) :
    ∀ name ∈ store.names, ∃ raw, TargetName.ofString raw = .ok name := by
  refine built.induction
    (motive := fun store => ∀ name ∈ store.names, ∃ raw, TargetName.ofString raw = .ok name)
    nofun ?_ ?_ ?_
  · intro store raw name named spelled
    rw [names, Store.push, List.map_append]
    exact List.forall_mem_append.mpr ⟨spelled, List.forall_mem_singleton.mpr ⟨raw, named⟩⟩
  · intro store owner dependency _ _ spelled
    rwa [names_attach]
  · intro store id _ spelled
    rwa [names_declare]

/-! ## Coherence -/

structure Coherent (store : Store) : Prop where
  closed : ∀ {owner dependency}, store.DependsOn owner dependency → dependency < store.size
  usage : ∀ {id target}, store.get? id = some target →
    (target.usage = .executable ↔
      target.hint = some .executable ∨
        target.hint = none ∧ ∀ owner, ¬ store.DependsOn owner id)

theorem usage_linkAsLibrary (target : Target) :
    target.linkAsLibrary.usage = .executable ↔
      target.usage = .executable ∧ target.hint ≠ none := by
  unfold Target.linkAsLibrary
  split
  · next unmarked => simp [unmarked]
  · next marked => simpa using fun executable unmarked => marked ⟨executable, unmarked⟩

theorem Coherent.empty : Store.empty.Coherent :=
  ⟨fun edge => absurd edge List.not_mem_nil, nofun⟩

theorem Coherent.push (coherent : store.Coherent) (name : TargetName) :
    (store.push name).Coherent := by
  constructor
  · intro owner dependency edge
    rw [DependsOn, edges_push] at edge
    rw [size_push]
    exact Nat.lt_succ_of_lt (coherent.closed edge)
  · intro id target held
    simp only [DependsOn, edges_push]
    obtain old | rfl | beyond := Nat.lt_trichotomy id store.size
    · rw [get?_push_of_lt old] at held
      exact coherent.usage held
    · -- Nothing depends on the new target, for its number was not in use.
      rw [get?_push_self] at held
      cases held
      have fresh : ∀ owner, ¬ store.DependsOn owner store.size :=
        fun owner edge => Nat.lt_irrefl _ (coherent.closed edge)
      simp only [DependsOn] at fresh
      cases hint : name.hint <;> simp [Target.ofName, hint, fresh]
    · have bound : id < store.size + 1 := size_push store name ▸ lt_of_get? held
      exact absurd (Nat.le_of_lt_succ bound) (Nat.not_le_of_lt beyond)

/-- An edge touches the usage of the dependency alone, and no hint. -/
theorem get?_of_attach {target : Target}
    (found : (store.attach owner dependency).get? id = some target) :
    ∃ old, store.get? id = some old ∧ target.hint = old.hint ∧
      (target.usage = .executable ↔
        old.usage = .executable ∧ (dependency = id → old.hint ≠ none)) := by
  have extended : ∀ {middle : Target}, (store.modify owner (·.withDependency dependency)).get? id =
      some middle → ∃ old, store.get? id = some old ∧ middle.hint = old.hint ∧
        middle.usage = old.usage := by
    intro middle found
    rw [get?_modify] at found
    split at found
    · obtain ⟨old, held, rfl⟩ := Option.map_eq_some_iff.mp found
      exact ⟨old, held, rfl, rfl⟩
    · exact ⟨middle, found, rfl, rfl⟩
  rw [attach, get?_modify] at found
  split at found
  · next same =>
    obtain ⟨middle, foundMiddle, rfl⟩ := Option.map_eq_some_iff.mp found
    obtain ⟨old, held, hint, usage⟩ := extended foundMiddle
    refine ⟨old, held, by rw [hint_linkAsLibrary, hint], ?_⟩
    rw [usage_linkAsLibrary, usage, hint]
    simp [same]
  · next different =>
    obtain ⟨old, held, hint, usage⟩ := extended found
    exact ⟨old, held, hint, by simp [usage, different]⟩

theorem Coherent.attach (coherent : store.Coherent) (ownerHeld : owner < store.size)
    (held : dependency < store.size) : (store.attach owner dependency).Coherent := by
  constructor
  · intro first second edge
    rw [size_attach]
    obtain edge | ⟨-, rfl⟩ := (dependsOn_attach ownerHeld).mp edge
    · exact coherent.closed edge
    · exact held
  · intro id target found
    obtain ⟨old, heldBefore, hint, usage⟩ := get?_of_attach found
    simp only [dependsOn_attach ownerHeld, usage, coherent.usage heldBefore, hint]
    -- Without a hint, what remains is that nothing depended on it and that it is not linked now.
    cases marked : old.hint with
    | none =>
      simp only [reduceCtorEq, false_or, true_and, ne_eq, not_true_eq_false, imp_false, not_or,
        not_and]
      constructor
      · rintro ⟨alone, different⟩ other
        exact ⟨alone other, fun _ same => different same.symm⟩
      · intro alone
        exact ⟨fun other => (alone other).1, fun same => (alone owner).2 rfl same.symm⟩
    | some mark => simp

theorem Coherent.declare (coherent : store.Coherent) (id : TargetId) :
    (store.modify id Target.declare).Coherent := by
  constructor
  · rw [dependsOn_declare, size_modify]
    exact coherent.closed
  · intro other target found
    rw [dependsOn_declare]
    rw [get?_modify] at found
    split at found
    · obtain ⟨old, held, rfl⟩ := Option.map_eq_some_iff.mp found
      have kept := coherent.usage held
      exact kept
    · exact coherent.usage found

theorem Built.coherent (built : store.Built) : store.Coherent :=
  built.induction .empty (fun _ _ name _ coherent => coherent.push name)
    (fun _ _ _ ownerHeld held coherent => coherent.attach ownerHeld held)
    (fun _ id _ coherent => coherent.declare id)

/-- Usages can be told from the graph as it is. A hint decides; without one, a target is a library
when some target lists it, which may be the target itself. -/
def UsageFollowsGraph (store : Store) : Prop :=
  ∀ id target, store.get? id = some target →
    (target.usage = .library ↔
      target.hint = some .library ∨ target.hint = none ∧ ∃ owner, store.DependsOn owner id) ∧
    (target.usage = .executable ↔
      target.hint = some .executable ∨ target.hint = none ∧ ∀ owner, ¬ store.DependsOn owner id)

theorem Coherent.usageFollowsGraph (coherent : store.Coherent) : store.UsageFollowsGraph := by
  intro id target held
  have executable := coherent.usage held
  refine ⟨?_, executable⟩
  have library : target.usage = .library ↔ ¬ target.usage = .executable := by
    cases target.usage <;> simp
  rw [library, executable]
  cases target.hint with
  | none => simp
  | some mark => cases mark <;> simp

/-! ## Executables among the dependencies -/

def MarksExecutable (store : Store) (id : TargetId) : Prop :=
  store.hint? id = some (some .executable)

theorem isExecutable_iff : store.isExecutable id = true ↔
    ∃ target, store.get? id = some target ∧ target.usage = .executable := by
  simp [isExecutable, Option.any_eq_true]

/-- What is depended upon is an executable only by its mark. -/
theorem Coherent.isExecutable_of_dependsOn (coherent : store.Coherent)
    (edge : store.DependsOn owner id) :
    store.isExecutable id = true ↔ store.MarksExecutable id := by
  rw [isExecutable_iff, MarksExecutable, hint?, Option.map_eq_some_iff]
  refine exists_congr fun target => and_congr_right fun held => ?_
  rw [coherent.usage held]
  exact or_iff_left fun unmarked => unmarked.2 owner edge

end BuildGraph.Store
