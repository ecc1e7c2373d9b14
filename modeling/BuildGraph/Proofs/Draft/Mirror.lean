import BuildGraph.Proofs.Draft.Reading
import BuildGraph.Proofs.Store.Renumbered

/-! Drafts that agree on some names.

Two drafts may number their targets differently and differ in everything that other names are
about. A step that reads one of the names finds the same targets in both, so they go on to agree.
-/

set_option autoImplicit false

namespace BuildGraph

namespace Store

variable {store : Store} {names : String → Bool} {id other : TargetId} {target : Target}
  {name : TargetName} {ids : List TargetId} {cleaned : String}

def among (store : Store) (names : String → Bool) (id : TargetId) : Option Target :=
  (store.get? id).filter fun target => names target.name

def NamedIn (store : Store) (names : String → Bool) (id : TargetId) : Prop :=
  ∃ cleaned, store.name? id = some cleaned ∧ names cleaned = true

theorem among_eq_some_iff :
    store.among names id = some target ↔ store.get? id = some target ∧ names target.name = true :=
  Option.filter_eq_some_iff

theorem NamedIn.among (named : store.NamedIn names id) :
    ∃ target, store.among names id = some target := by
  obtain ⟨cleaned, held, listed⟩ := named
  obtain ⟨target, found, rfl⟩ := Option.map_eq_some_iff.mp held
  exact ⟨target, among_eq_some_iff.mpr ⟨found, listed⟩⟩

theorem among_eq_none (held : store.name? id = some cleaned) (unlike : names cleaned = false) :
    store.among names id = none := by
  obtain ⟨target, found, rfl⟩ := Option.map_eq_some_iff.mp held
  rw [among, found, Option.filter_some, unlike]
  rfl

theorem among_of_le (unknown : store.size ≤ id) : store.among names id = none := by
  rw [among, get?_eq_none_iff.mpr unknown, Option.filter_none]

theorem among_all (store : Store) : store.among (fun _ => true) = store.get? := by
  funext id
  cases found : store.get? id <;> simp [among, found]

theorem among_modify {change : Target → Target}
    (same : ∀ target, (change target).name = target.name) :
    (store.modify id change).among names other =
      if id = other then (store.among names other).map change else store.among names other := by
  rw [among, get?_modify, among]
  split
  · cases store.get? other with
    | none => rfl
    | some target => simp [Option.filter_some, same, apply_ite]
  · rfl

theorem among_push : (store.push name).among names id =
    if id = store.size then
      (some (Target.ofName store.size name)).filter fun target => names target.name
    else store.among names id := by
  split
  · next same => rw [same, among, get?_push_self]
  · next different =>
    obtain old | beyond := Nat.lt_or_gt_of_ne different
    · rw [among, get?_push_of_lt old, among]
    · rw [among_of_le (Nat.le_of_lt beyond), among_of_le (by rw [size_push]; omega)]

/-! ### Searches -/

theorem find?_modify {change : Target → Target}
    (same : ∀ target, (change target).name = target.name) :
    (store.modify id change).find? ids cleaned = store.find? ids cleaned := by
  rw [find?, find?]
  congr
  funext other
  rw [get?_modify]
  split
  · simp [Option.any_map, same]
  · rfl

theorem find?_push (held : ∀ id ∈ ids, id < store.size) :
    (store.push name).find? ids cleaned = store.find? ids cleaned := by
  induction ids with
  | nil => rfl
  | cons id ids ih =>
    obtain ⟨first, others⟩ := List.forall_mem_cons.mp held
    have next := ih others
    rw [find?] at next ⊢
    rw [List.find?_cons, get?_push_of_lt first, next, find?, find?, List.find?_cons]

theorem find?_append {more : List TargetId} :
    store.find? (ids ++ more) cleaned =
      (store.find? ids cleaned).or (store.find? more cleaned) :=
  List.find?_append

theorem any_among (named : names cleaned = true) :
    (store.among names id).any (·.name == cleaned) = (store.get? id).any (·.name == cleaned) := by
  cases found : store.get? id with
  | none => simp [among, found]
  | some target =>
    by_cases same : target.name = cleaned
    · simp [among, found, same, named]
    · simp [among, found, same, Option.any_filter]

end Store

namespace Draft

variable {draft other third : Draft} {σ τ : Equiv.Perm TargetId} {names : String → Bool}
  {scope outer : Option TargetId} {name : TargetName} {id owner : TargetId}

def orCreate (draft : Draft) (scope : Option TargetId) (name : TargetName) :
    Option TargetId → Draft × TargetId
  | some id => (draft, id)
  | none => (draft.create scope name, draft.store.size)

theorem place_eq_orCreate : draft.place scope name =
    draft.orCreate scope name (draft.store.find? (draft.members scope) name.cleaned) := by
  unfold place
  cases draft.store.find? (draft.members scope) name.cleaned <;> rfl

theorem placeEntry_eq_orCreate : draft.placeEntry outer name =
    draft.orCreate none name (draft.resolve outer name) := by
  unfold placeEntry
  cases draft.resolve outer name <;> rfl

/-- The two drafts hold the same targets with one of the names, numbered by `σ`, and the same ones
of them are found among the global names. -/
structure Mirrors (σ : Equiv.Perm TargetId) (names : String → Bool) (draft other : Draft) :
    Prop where
  targets : ∀ id, other.store.among names (σ id) =
    (draft.store.among names id).map (Target.renumber σ)
  globals : ∀ cleaned, names cleaned = true →
    other.store.find? other.globals cleaned = (draft.store.find? draft.globals cleaned).map σ

def Within (names : String → Bool) (draft : Draft) (scope : Option TargetId) : Prop :=
  ∀ owner, scope = some owner → draft.store.NamedIn names owner

namespace Mirrors

/-! ## Mirrors of mirrors -/

theorem symm (mirrors : Mirrors σ names draft other) : Mirrors σ.symm names other draft where
  targets := by
    intro id
    have held := mirrors.targets (σ.symm id)
    rw [Equiv.apply_symm_apply] at held
    rw [held, Option.map_map]
    simp [Function.comp_def]
  globals := by
    intro cleaned named
    rw [mirrors.globals cleaned named, Option.map_map, Equiv.symm_comp_self, Option.map_id_apply]

theorem trans (first : Mirrors σ names draft other) (second : Mirrors τ names other third) :
    Mirrors (σ.trans τ) names draft third where
  targets := by
    intro id
    rw [Equiv.trans_apply, second.targets, first.targets, Option.map_map]
    simp [Function.comp_def]
  globals := by
    intro cleaned named
    rw [second.globals cleaned named, first.globals cleaned named, Option.map_map,
      Equiv.coe_trans]

/-- What a renumbering does to numbers that are not in use makes no difference. -/
theorem congr (mirrors : Mirrors σ names draft other) (built : draft.store.Built)
    (same : ∀ id < draft.store.size, σ id = τ id) : Mirrors τ names draft other where
  targets := by
    intro id
    obtain held | unknown := Nat.lt_or_ge id draft.store.size
    · rw [← same id held, mirrors.targets]
      refine Option.map_congr fun target seen => ?_
      obtain ⟨found, -⟩ := Store.among_eq_some_iff.mp seen
      refine Target.renumber_congr ?_ fun dependency listed => ?_
      · rw [built.id_eq found, same id held]
      · exact same _ (built.coherent.closed (Store.dependsOn_iff.mpr ⟨target, found, listed⟩))
    · -- The number that `σ` takes to the same place is not in use either.
      have unused : draft.store.size ≤ σ.symm (τ id) := by
        by_contra held
        have back := same _ (Nat.lt_of_not_le held)
        rw [Equiv.apply_symm_apply] at back
        exact held (τ.injective back ▸ unknown)
      have seen := mirrors.targets (σ.symm (τ id))
      rw [Equiv.apply_symm_apply, Store.among_of_le unused] at seen
      rw [seen, Store.among_of_le unknown, Option.map_none, Option.map_none]
  globals := by
    intro cleaned named
    rw [mirrors.globals cleaned named]
    exact Option.map_congr fun id found => same id (Store.find?_lt found)

theorem of_each (each : ∀ cleaned, ∃ names : String → Bool,
    names cleaned = true ∧ Mirrors σ names draft other) :
    Mirrors σ (fun _ => true) draft other where
  targets := by
    intro id
    rw [Store.among_all, Store.among_all]
    cases held : draft.store.get? id with
    | some target =>
      obtain ⟨names, named, mirrors⟩ := each target.name
      have seen := mirrors.targets id
      rw [Store.among_eq_some_iff.mpr ⟨held, named⟩, Option.map_some,
        Store.among_eq_some_iff] at seen
      exact seen.1
    | none =>
      -- A target that only the second draft holds would be seen in the first one, too.
      cases heldToo : other.store.get? (σ id) with
      | none => rfl
      | some target =>
        obtain ⟨names, named, mirrors⟩ := each target.name
        have seen := mirrors.targets id
        rw [Store.among_eq_some_iff.mpr ⟨heldToo, named⟩, Store.among, held] at seen
        cases seen
  globals := by
    intro cleaned _
    obtain ⟨names, named, mirrors⟩ := each cleaned
    exact mirrors.globals cleaned named

theorem renumbered (mirrors : Mirrors σ (fun _ => true) draft other) :
    Store.Renumbered σ draft.store other.store := by
  intro id
  have held := mirrors.targets id
  rwa [Store.among_all, Store.among_all] at held

/-! ## Searches -/

theorem find? (mirrors : Mirrors σ names draft other) {cleaned : String}
    (named : names cleaned = true) (ids : List TargetId) :
    other.store.find? (ids.map σ) cleaned = (draft.store.find? ids cleaned).map σ := by
  rw [Store.find?, List.find?_map, Store.find?]
  congr
  funext id
  rw [Function.comp_apply, ← Store.any_among named, mirrors.targets, Option.any_map,
    ← Store.any_among named]
  rfl

theorem find?_members (mirrors : Mirrors σ names draft other) {cleaned : String}
    (named : names cleaned = true) (within : Within names draft scope) :
    other.store.find? (other.members (scope.map σ)) cleaned =
      (draft.store.find? (draft.members scope) cleaned).map σ := by
  cases scope with
  | none => exact mirrors.globals cleaned named
  | some owner =>
    obtain ⟨target, seen⟩ := (within owner rfl).among
    -- The owner is seen in both drafts, and with it its whole list, whatever names are in there.
    have seenToo := mirrors.targets owner
    rw [seen, Option.map_some, Store.among_eq_some_iff] at seenToo
    have edges : other.store.edges (σ owner) = (draft.store.edges owner).map σ := by
      rw [Store.edges_of_get? seenToo.1, Store.edges_of_get? (Store.among_eq_some_iff.mp seen).1]
      rfl
    show other.store.find? (other.store.edges (σ owner)) cleaned = _
    rw [edges, mirrors.find? named]
    rfl

/-! ## Changes -/

theorem modify (mirrors : Mirrors σ names draft other) (change changeToo : Target → Target)
    (same : ∀ target, (change target).name = target.name)
    (sameToo : ∀ target, (changeToo target).name = target.name)
    (moves : ∀ target, (change target).renumber σ = changeToo (target.renumber σ))
    (id : TargetId) :
    Mirrors σ names { draft with store := draft.store.modify id change }
      { other with store := other.store.modify (σ id) changeToo } where
  targets := by
    intro place
    rw [Store.among_modify same, Store.among_modify sameToo, mirrors.targets]
    simp only [σ.injective.eq_iff]
    split
    · simp only [Option.map_map]
      exact Option.map_congr fun target _ => (moves target).symm
    · rfl
  globals := by
    intro cleaned named
    rw [Store.find?_modify same, Store.find?_modify sameToo, mirrors.globals cleaned named]

theorem push (mirrors : Mirrors σ names draft other) (grounded : draft.Grounded)
    (groundedToo : other.Grounded) (fresh : σ draft.store.size = other.store.size)
    (name : TargetName) :
    Mirrors σ names { draft with store := draft.store.push name }
      { other with store := other.store.push name } where
  targets := by
    intro id
    -- The first free numbers of the two correspond, so no number that is in use meets the new one.
    rw [Store.among_push, Store.among_push, ← fresh, mirrors.targets]
    simp only [σ.injective.eq_iff]
    split
    · rw [← Target.renumber_ofName]
      cases named : names name.cleaned <;> simp [Option.filter_some, Target.ofName, named]
    · rfl
  globals := by
    intro cleaned named
    rw [Store.find?_push groundedToo, Store.find?_push grounded, mirrors.globals cleaned named]

theorem enlist (mirrors : Mirrors σ names draft other) (scope : Option TargetId) (id : TargetId) :
    Mirrors σ names (draft.enlist scope id) (other.enlist (scope.map σ) (σ id)) := by
  cases scope with
  | none =>
    refine ⟨mirrors.targets, fun cleaned named => ?_⟩
    have alone := mirrors.find? named [id]
    rw [List.map_singleton] at alone
    simp only [Draft.enlist, Option.map_none]
    rw [Store.find?_append, Store.find?_append, mirrors.globals cleaned named, alone,
      Option.map_or]
  | some owner =>
    have extended := mirrors.modify (·.withDependency id) (·.withDependency (σ id))
      (fun _ => rfl) (fun _ => rfl) (fun target => target.renumber_withDependency id) owner
    exact extended.modify Target.linkAsLibrary Target.linkAsLibrary Store.name_linkAsLibrary
      Store.name_linkAsLibrary Target.renumber_linkAsLibrary id

theorem create (mirrors : Mirrors σ names draft other) (grounded : draft.Grounded)
    (groundedToo : other.Grounded) (fresh : σ draft.store.size = other.store.size)
    (scope : Option TargetId) (name : TargetName) :
    Mirrors σ names (draft.create scope name) (other.create (scope.map σ) name) := by
  have created := (mirrors.push grounded groundedToo fresh name).enlist scope draft.store.size
  rwa [fresh] at created

/-! ## Keys and entries -/

/-- After a step the second number and draft are those of the first one in the mirror, and as many
targets are new. -/
structure Placed (σ : Equiv.Perm TargetId) (names : String → Bool) (draft other : Draft)
    (placed placedToo : Draft × TargetId) : Prop where
  mirrors : Mirrors σ names placed.1 placedToo.1
  number : placedToo.2 = σ placed.2
  grown : placedToo.1.store.size + draft.store.size = placed.1.store.size + other.store.size

section

variable (mirrors : Mirrors σ names draft other) (grounded : draft.Grounded)
  (groundedToo : other.Grounded)

include mirrors grounded groundedToo

theorem orCreate (found : Option TargetId)
    (fresh : draft.store.size < (draft.orCreate scope name found).1.store.size →
      σ draft.store.size = other.store.size) :
    Placed σ names draft other (draft.orCreate scope name found)
      (other.orCreate (scope.map σ) name (found.map σ)) := by
  cases found with
  | some id => exact ⟨mirrors, rfl, Nat.add_comm _ _⟩
  | none =>
    have matched := fresh (by simp [Draft.orCreate, create_size])
    refine ⟨mirrors.create grounded groundedToo matched scope name, matched.symm, ?_⟩
    simp only [Draft.orCreate, Option.map_none, create_size]
    omega

variable (named : names name.cleaned = true)

include named

theorem place (within : Within names draft scope)
    (fresh : draft.store.size < (draft.place scope name).1.store.size →
      σ draft.store.size = other.store.size) :
    Placed σ names draft other (draft.place scope name) (other.place (scope.map σ) name) := by
  rw [place_eq_orCreate] at fresh ⊢
  rw [place_eq_orCreate, mirrors.find?_members named within]
  exact mirrors.orCreate grounded groundedToo _ fresh

theorem declare (within : Within names draft scope)
    (fresh : draft.store.size < (draft.declare scope name).1.store.size →
      σ draft.store.size = other.store.size) :
    Placed σ names draft other (draft.declare scope name)
      (other.declare (scope.map σ) name) := by
  have ⟨placed, number, grown⟩ := mirrors.place grounded groundedToo named within
    (by simpa [Draft.declare] using fresh)
  have declared := placed.modify Target.declare Target.declare (fun _ => rfl) (fun _ => rfl)
    Target.renumber_declare (draft.place scope name).2
  rw [← number] at declared
  exact ⟨declared, number, by simpa [Draft.declare] using grown⟩

theorem placeEntry (within : Within names draft outer)
    (fresh : draft.store.size < (draft.placeEntry outer name).1.store.size →
      σ draft.store.size = other.store.size) :
    Placed σ names draft other (draft.placeEntry outer name)
      (other.placeEntry (outer.map σ) name) := by
  have sibling : other.store.find? (other.siblings (outer.map σ)) name.cleaned =
      (draft.store.find? (draft.siblings outer) name.cleaned).map σ := by
    cases outer with
    | none => rfl
    | some owner => exact mirrors.find?_members named within
  have found : other.resolve (outer.map σ) name = (draft.resolve outer name).map σ := by
    rw [resolve, sibling, mirrors.globals _ named, ← Option.map_or, resolve]
  rw [placeEntry_eq_orCreate] at fresh ⊢
  rw [placeEntry_eq_orCreate, found]
  exact mirrors.orCreate grounded groundedToo _ fresh

theorem addEntry (within : Within names draft outer) (owner : TargetId)
    (fresh : draft.store.size < (draft.addEntry outer owner name).store.size →
      σ draft.store.size = other.store.size) :
    Mirrors σ names (draft.addEntry outer owner name)
        (other.addEntry (outer.map σ) (σ owner) name) ∧
      (other.addEntry (outer.map σ) (σ owner) name).store.size + draft.store.size =
        (draft.addEntry outer owner name).store.size + other.store.size := by
  have ⟨placed, number, grown⟩ := mirrors.placeEntry grounded groundedToo named within
    (by simpa [Draft.addEntry, enlist_size] using fresh)
  have listed := placed.enlist (some owner) (draft.placeEntry outer name).2
  rw [← number] at listed
  exact ⟨listed, by simpa [Draft.addEntry, enlist_size] using grown⟩

end

end Mirrors

end Draft

end BuildGraph
