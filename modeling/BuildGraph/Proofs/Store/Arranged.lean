import BuildGraph.Proofs.Store.Built

/-! Calls that link and declare targets, in any order.

Such calls add to each dependency list the links of its owner in their order, and what is declared
stays declared. So with the same links and the same declarations in another order, only the order
of the dependency lists is another one.
-/

set_option autoImplicit false

namespace BuildGraph

def Target.Reordered (target other : Target) : Prop :=
  other = { target with dependencies := other.dependencies } ∧
    other.dependencies.Perm target.dependencies

namespace Store

variable {base store other middle : Store} {calls front back first second : List Call}
  {owner dependency id : TargetId}

def Call.edge? : Call → Option (TargetId × TargetId)
  | .link owner dependency => some (owner, dependency)
  | _ => none

/-- Calls that add these edges and declare these targets, and do nothing else. -/
structure Arranges (edges : List (TargetId × TargetId)) (declared : TargetId → Prop)
    (calls : List Call) : Prop where
  edges : (calls.filterMap Call.edge?).Perm edges
  declares : ∀ id, .declare id ∈ calls ↔ declared id
  only : ∀ call ∈ calls, call.edge?.isSome = true ∨ ∃ id, call = .declare id

/-! ## One call after the other -/

def linkedBy (calls : List Call) (id : TargetId) : List TargetId :=
  ((calls.filterMap Call.edge?).filter (·.1 = id)).map Prod.snd

structure Wired (base : Store) (calls : List Call) (store : Store) : Prop where
  names : store.names = base.names
  edges : ∀ id, store.edges id = base.edges id ++ linkedBy calls id
  declared : ∀ id,
    store.declared? id = (base.declared? id).map (· || decide (.declare id ∈ calls))

theorem length_names (store : Store) : store.names.length = store.size :=
  List.length_map _

namespace Wired

theorem nil (store : Store) : Wired store [] store where
  names := rfl
  edges id := by simp [linkedBy]
  declared id := by simp

theorem append (wired : Wired base front middle) (next : Wired middle back store) :
    Wired base (front ++ back) store where
  names := next.names.trans wired.names
  edges id := by simp [next.edges, wired.edges, linkedBy]
  declared id := by simp [next.declared, wired.declared, Function.comp_def, Bool.or_assoc]

theorem size (wired : Wired base calls store) : store.size = base.size := by
  rw [← length_names, wired.names, length_names]

theorem link (ownerHeld : owner < store.size) :
    Wired store [.link owner dependency] (store.attach owner dependency) where
  names := names_attach store owner dependency
  edges id := by
    rw [edges_attach ownerHeld]
    by_cases same : id = owner
    · simp [linkedBy, Call.edge?, same]
    · simp [linkedBy, Call.edge?, same, Ne.symm same]
  declared id := by simp

/-- A target that is not there cannot be declared, and then nothing happens. -/
theorem declare (store : Store) (id : TargetId) :
    Wired store [.declare id] (store.after (.declare id)) := by
  obtain held | unknown := Nat.lt_or_ge id store.size
  · rw [after_of_attempt (attempt_declare held)]
    refine ⟨names_declare store id, fun other => by simp [linkedBy, Call.edge?], fun other => ?_⟩
    by_cases same : other = id
    · subst same
      have found : store.get? other = some store.targets[other] := List.getElem?_eq_getElem held
      rw [declared?_declare_self held]
      simp [declared?, found]
    · rw [declared?_declare_of_ne same]
      simp [same]
  · have refused : store.after (.declare id) = store := by
      rw [after, Store.declare, get_of_le unknown, Except.map]
    rw [refused]
    refine ⟨rfl, fun other => by simp [linkedBy, Call.edge?], fun other => ?_⟩
    by_cases same : other = id
    · subst same
      simp [declared?, get?_eq_none_iff.mpr unknown]
    · simp [same]

end Wired

inductive Call.Fits (size : Nat) : Call → Prop where
  | link {owner dependency : TargetId} (ownerHeld : owner < size) (held : dependency < size) :
      Fits size (.link owner dependency)
  | declare (id : TargetId) : Fits size (.declare id)

theorem wired_call {call : Call} (fits : call.Fits store.size) :
    Wired store [call] (store.after call) := by
  cases fits with
  | link ownerHeld held =>
    rw [after_of_attempt (attempt_link ownerHeld held)]
    exact .link ownerHeld
  | declare id => exact .declare store id

theorem wired_calls (calls : List Call) (fit : ∀ call ∈ calls, call.Fits store.size) :
    Wired store calls (calls.foldl after store) := by
  induction calls generalizing store with
  | nil => exact .nil store
  | cons call rest ih =>
    obtain ⟨first, others⟩ := List.forall_mem_cons.mp fit
    have wired := wired_call first
    exact wired.append (ih (by rwa [wired.size]))

/-! ## Calls that do not fail -/

theorem foldlM_calls (calls : List Call) (fit : ∀ call ∈ calls, call.Fits store.size)
    (known : ∀ id, .declare id ∈ calls → id < store.size) :
    calls.foldlM attempt store = some (calls.foldl after store) := by
  induction calls generalizing store with
  | nil => rfl
  | cons call rest ih =>
    obtain ⟨first, others⟩ := List.forall_mem_cons.mp fit
    have called : store.attempt call = some (store.after call) := by
      cases first with
      | link ownerHeld held =>
        have linked := attempt_link ownerHeld held
        rw [linked, after_of_attempt linked]
      | declare id =>
        have declared := attempt_declare (known id List.mem_cons_self)
        rw [declared, after_of_attempt declared]
    have size := (wired_call first).size
    rw [List.foldlM_cons, called, List.foldl_cons]
    apply ih
    · rwa [size]
    · intro id member
      rw [size]
      exact known id (List.mem_cons_of_mem _ member)

theorem foldlM_adds (store : Store) (names : List String)
    (accepted : ∀ raw ∈ names, ∃ name, TargetName.ofString raw = .ok name) :
    (names.map Call.add).foldlM attempt store = some ((names.map Call.add).foldl after store) ∧
      ((names.map Call.add).foldl after store).size = store.size + names.length := by
  induction names generalizing store with
  | nil => exact ⟨rfl, rfl⟩
  | cons raw rest ih =>
    obtain ⟨⟨name, split⟩, others⟩ := List.forall_mem_cons.mp accepted
    have called : store.attempt (.add raw) = some (store.push name) := attempt_add split
    obtain ⟨run, size⟩ := ih (store.push name) others
    rw [List.map_cons, List.foldlM_cons, called, List.foldl_cons, after_of_attempt called]
    refine ⟨run, ?_⟩
    rw [size, size_push, List.length_cons]
    omega

/-! ## Another order -/

def Reordered (store other : Store) : Prop :=
  ∀ id, Option.Rel Target.Reordered (store.get? id) (other.get? id)

theorem Arranges.fits {edges : List (TargetId × TargetId)} {declared : TargetId → Prop}
    {size : Nat} (arranges : Arranges edges declared calls)
    (bounded : ∀ edge ∈ edges, edge.1 < size ∧ edge.2 < size) :
    ∀ call ∈ calls, call.Fits size := by
  intro call member
  rcases arranges.only call member with adds | ⟨id, rfl⟩
  · cases call with
    | link owner dependency =>
      have listed : (owner, dependency) ∈ calls.filterMap Call.edge? :=
        List.mem_filterMap.mpr ⟨_, member, rfl⟩
      obtain ⟨ownerHeld, held⟩ := bounded _ (arranges.edges.mem_iff.mp listed)
      exact .link ownerHeld held
    | _ => cases adds
  · exact .declare id

theorem spelling_of_names (same : other.names = store.names) {target found : Target}
    (held : store.get? id = some target) (heldToo : other.get? id = some found) :
    found.hint = target.hint ∧ found.name = target.name := by
  have place := congrArg (·[id]?) same
  simp only [names, List.getElem?_map] at place
  rw [get?] at held heldToo
  simpa [held, heldToo] using place

theorem Coherent.usage_eq (coherent : store.Coherent) (coherentToo : other.Coherent)
    (edges : ∀ id, (other.edges id).Perm (store.edges id)) {target found : Target}
    (held : store.get? id = some target) (heldToo : other.get? id = some found)
    (hint : found.hint = target.hint) : found.usage = target.usage := by
  have alone : (∀ owner, ¬ other.DependsOn owner id) ↔ ∀ owner, ¬ store.DependsOn owner id :=
    forall_congr' fun owner => not_congr (edges owner).mem_iff
  have executable := coherentToo.usage heldToo
  rw [hint, alone, ← coherent.usage held] at executable
  cases usage : target.usage with
  | executable => exact executable.mpr usage
  | library =>
    cases usageToo : found.usage with
    | executable => rw [executable.mp usageToo] at usage; cases usage
    | library => rfl

section

variable {edges : List (TargetId × TargetId)} {declared : TargetId → Prop}
  (arranges : Arranges edges declared first) (arrangesToo : Arranges edges declared second)
  (wired : Wired base first store) (wiredToo : Wired base second other)

include arranges arrangesToo wired wiredToo

theorem Wired.edges_perm (id : TargetId) : (other.edges id).Perm (store.edges id) := by
  have same := arrangesToo.edges.trans arranges.edges.symm
  rw [wired.edges, wiredToo.edges]
  exact ((same.filter _).map Prod.snd).append_left _

theorem Wired.declared_eq (id : TargetId) : other.declared? id = store.declared? id := by
  have same : Call.declare id ∈ second ↔ Call.declare id ∈ first :=
    (arrangesToo.declares id).trans (arranges.declares id).symm
  rw [wired.declared, wiredToo.declared, decide_eq_decide.mpr same]

/-- The same links and declarations in another order give the same targets, but for the order of
their dependencies. -/
theorem Wired.reordered (built : store.Built) (builtToo : other.Built) :
    store.Reordered other := by
  intro id
  have edges := Wired.edges_perm arranges arrangesToo wired wiredToo
  have declared := Wired.declared_eq arranges arrangesToo wired wiredToo id
  cases held : store.get? id with
  | none =>
    have beyond := get?_eq_none_iff.mp held
    rw [wired.size, ← wiredToo.size] at beyond
    rw [get?_eq_none_iff.mpr beyond]
    exact .none
  | some target =>
    have bound := lt_of_get? held
    rw [wired.size, ← wiredToo.size] at bound
    obtain ⟨found, heldToo⟩ : ∃ found, other.get? id = some found :=
      ⟨_, List.getElem?_eq_getElem bound⟩
    rw [heldToo]
    -- The usage is the one field that links change on the way, and the edges tell it in the end.
    obtain ⟨hint, name⟩ :=
      spelling_of_names (wiredToo.names.trans wired.names.symm) held heldToo
    have usage := built.coherent.usage_eq builtToo.coherent edges held heldToo hint
    have number := (builtToo.id_eq heldToo).trans (built.id_eq held).symm
    have perm := edges id
    rw [edges_of_get? held, edges_of_get? heldToo] at perm
    simp only [declared?, held, heldToo, Option.map_some, Option.some.injEq] at declared
    refine .some ⟨?_, perm⟩
    cases found
    simp_all

end

theorem Built.reordered_calls {edges : List (TargetId × TargetId)} {declared : TargetId → Prop}
    (built : base.Built) (arranges : Arranges edges declared first)
    (arrangesToo : Arranges edges declared second)
    (bounded : ∀ edge ∈ edges, edge.1 < base.size ∧ edge.2 < base.size) :
    (first.foldl after base).Reordered (second.foldl after base) := by
  have wired := wired_calls first (arranges.fits bounded)
  have wiredToo := wired_calls second (arrangesToo.fits bounded)
  exact Wired.reordered arranges arrangesToo wired wiredToo (built.calls first) (built.calls second)

end Store

end BuildGraph
