import BuildGraph.Proofs.Draft.Confined
import BuildGraph.Proofs.Store.Built

/-! How a document is read, key by key and entry by entry.

A move reads one thing in a draft whose open scopes have the given owners, the innermost first.
What every move keeps holds of every graph that documents lead to: calls on a store could have
built it, and only keys get dependencies.
-/

set_option autoImplicit false

namespace BuildGraph.Draft

inductive Moves (start : Draft) (opened : List TargetId) : Draft → List TargetId → Prop where
  | stay : Moves start opened start opened
  | key {draft : Draft} {owners : List TargetId} {raw : String} {name : TargetName}
      (before : Moves start opened draft owners) (named : TargetName.ofString raw = .ok name)
      (live : draft.Live owners.head?) :
      Moves start opened (draft.declare owners.head? name).1 owners
  | enter {draft : Draft} {owners : List TargetId} {raw : String} {name : TargetName}
      (before : Moves start opened draft owners) (named : TargetName.ofString raw = .ok name)
      (live : draft.Live owners.head?) :
      Moves start opened (draft.declare owners.head? name).1
        ((draft.declare owners.head? name).2 :: owners)
  | leave {draft : Draft} {owner : TargetId} {owners : List TargetId}
      (before : Moves start opened draft (owner :: owners)) : Moves start opened draft owners
  | entry {draft : Draft} {owner : TargetId} {owners : List TargetId} {raw : String}
      {name : TargetName} (before : Moves start opened draft (owner :: owners))
      (named : TargetName.ofString raw = .ok name) (live : draft.Live owners.head?)
      (held : owner < (draft.placeEntry owners.head? name).1.store.size) :
      Moves start opened (draft.addEntry owners.head? owner name) (owner :: owners)

variable {start middle draft : Draft} {opened between owners : List TargetId}
  {scope outer : Option TargetId} {name : TargetName} {raw : String} {id owner : TargetId}

theorem Moves.trans (first : Moves start opened middle between)
    (second : Moves middle between draft owners) : Moves start opened draft owners := by
  induction second with
  | stay => exact first
  | key _ named live before => exact before.key named live
  | enter _ named live before => exact before.enter named live
  | leave _ before => exact before.leave
  | entry _ named live held before => exact before.entry named live held

/-! ## Stores that calls could have built -/

theorem create_built (built : draft.store.Built) (named : TargetName.ofString raw = .ok name)
    (live : draft.Live scope) : (draft.create scope name).store.Built := by
  have pushed := built.push named
  cases scope with
  | none => exact pushed
  | some owner =>
    refine pushed.attach ?_ ?_ <;> rw [Store.size_push]
    · exact Nat.lt_succ_of_lt (live owner rfl)
    · exact Nat.lt_succ_self _

theorem declare_built (built : draft.store.Built) (named : TargetName.ofString raw = .ok name)
    (live : draft.Live scope) : (draft.declare scope name).1.store.Built := by
  have placed : (draft.place scope name).1.store.Built := by
    unfold place
    split
    · exact built
    · exact create_built built named live
  exact placed.declare (place_lt draft scope name)

theorem placeEntry_built (built : draft.store.Built) (named : TargetName.ofString raw = .ok name) :
    (draft.placeEntry outer name).1.store.Built := by
  unfold placeEntry
  split
  · exact built
  · exact create_built built named live_none

theorem Moves.built (moves : Moves start opened draft owners) (built : start.store.Built) :
    draft.store.Built := by
  induction moves with
  | stay => exact built
  | key _ named live before => exact declare_built before named live
  | enter _ named live before => exact declare_built before named live
  | leave _ before => exact before
  | entry _ named live held before =>
    exact (placeEntry_built before named).attach held (placeEntry_lt _ _ _)

/-! ## Only keys have dependencies -/

theorem declared?_create :
    (draft.create scope name).store.declared? = (draft.store.push name).declared? := by
  cases scope <;> simp [create, enlist]

theorem declared?_declare_self :
    (draft.declare scope name).1.store.declared? (draft.declare scope name).2 = some true :=
  Store.declared?_declare_self (place_lt draft scope name)

theorem declared?_place_of_ne (different : id ≠ (draft.place scope name).2) :
    (draft.place scope name).1.store.declared? id = draft.store.declared? id := by
  unfold place at different ⊢
  split at different
  · rfl
  · rw [declared?_create, Store.declared?_push_of_ne different]

theorem declared?_declare_of_ne (different : id ≠ (draft.declare scope name).2) :
    (draft.declare scope name).1.store.declared? id = draft.store.declared? id :=
  (Store.declared?_declare_of_ne different).trans (declared?_place_of_ne different)

theorem declared?_declare_of_declared (declared : draft.store.declared? id = some true) :
    (draft.declare scope name).1.store.declared? id = some true := by
  by_cases same : id = (draft.declare scope name).2
  · rw [same, declared?_declare_self]
  · rw [declared?_declare_of_ne same, declared]

theorem declared?_addEntry_of_ne (different : id ≠ (draft.placeEntry outer name).2) :
    (draft.addEntry outer owner name).store.declared? id = draft.store.declared? id := by
  simp only [addEntry, enlist, Store.declared?_attach]
  unfold placeEntry at different ⊢
  split at different
  · rfl
  · rw [declared?_create, Store.declared?_push_of_ne different]

theorem declared?_addEntry_of_declared (declared : draft.store.declared? id = some true) :
    (draft.addEntry outer owner name).store.declared? id = some true := by
  simp only [addEntry, enlist, Store.declared?_attach]
  unfold placeEntry
  split
  · exact declared
  · obtain ⟨target, found, -⟩ := Option.map_eq_some_iff.mp declared
    have old : id ≠ draft.store.size := Nat.ne_of_lt (Store.lt_of_get? found)
    rw [declared?_create, Store.declared?_push_of_ne old, declared]

theorem addEntry_dependsOn {parent child : TargetId}
    (held : owner < (draft.placeEntry outer name).1.store.size) :
    (draft.addEntry outer owner name).store.DependsOn parent child ↔
      draft.store.DependsOn parent child ∨
        parent = owner ∧ child = (draft.placeEntry outer name).2 := by
  have placed : (draft.placeEntry outer name).1.store.DependsOn parent child ↔
      draft.store.DependsOn parent child := by
    unfold placeEntry
    split
    · rfl
    · simp [create_dependsOn live_none]
  rw [← placed]
  exact Store.dependsOn_attach held

/-- The owners of scopes were declared, and so was every target with dependencies. A target that
was not declared is in some list. -/
structure Keyed (draft : Draft) (owners : List TargetId) : Prop where
  owners : ∀ owner ∈ owners, draft.store.declared? owner = some true
  keys : ∀ {owner id}, draft.store.DependsOn owner id → draft.store.declared? owner = some true
  listed : ∀ {id}, draft.store.declared? id = some false →
    ∃ owner, draft.store.DependsOn owner id

theorem Keyed.empty : Draft.empty.Keyed [] where
  owners := nofun
  keys := fun edge => absurd edge List.not_mem_nil
  listed := nofun

theorem Keyed.declare (keyed : draft.Keyed owners) (live : draft.Live owners.head?)
    (name : TargetName) : (draft.declare owners.head? name).1.Keyed owners where
  owners := fun owner member => declared?_declare_of_declared (keyed.owners owner member)
  keys := by
    intro parent child edge
    apply declared?_declare_of_declared
    have placed : child ∈ (draft.place owners.head? name).1.members (some parent) := by
      rw [← declare_members]
      exact edge
    -- The one new edge starts at the owner of the innermost scope.
    unfold place at placed
    split at placed
    · exact keyed.keys placed
    · obtain old | ⟨innermost, -⟩ := (create_dependsOn live).mp placed
      · exact keyed.keys old
      · exact keyed.owners parent (List.mem_of_head? innermost)
  listed := by
    -- What is not declared even now was there before, and edges stay.
    intro child undeclared
    have other : child ≠ (draft.declare owners.head? name).2 := by
      rintro rfl
      rw [declared?_declare_self] at undeclared
      cases undeclared
    rw [declared?_declare_of_ne other] at undeclared
    obtain ⟨parent, edge⟩ := keyed.listed undeclared
    exact ⟨parent, Grows.declare live (some parent) child edge⟩

theorem Keyed.addEntry (keyed : draft.Keyed (owner :: owners))
    (held : owner < (draft.placeEntry owners.head? name).1.store.size) :
    (draft.addEntry owners.head? owner name).Keyed (owner :: owners) where
  owners := fun owner member => declared?_addEntry_of_declared (keyed.owners owner member)
  keys := by
    intro parent child edge
    apply declared?_addEntry_of_declared
    obtain old | ⟨rfl, -⟩ := (addEntry_dependsOn held).mp edge
    · exact keyed.keys old
    · exact keyed.owners parent List.mem_cons_self
  listed := by
    intro child undeclared
    by_cases named : child = (draft.placeEntry owners.head? name).2
    · exact ⟨owner, (addEntry_dependsOn held).mpr (.inr ⟨rfl, named⟩)⟩
    · rw [declared?_addEntry_of_ne named] at undeclared
      obtain ⟨parent, edge⟩ := keyed.listed undeclared
      exact ⟨parent, (addEntry_dependsOn held).mpr (.inl edge)⟩

theorem Moves.keyed (moves : Moves start opened draft owners) (keyed : start.Keyed opened) :
    draft.Keyed owners := by
  induction moves with
  | stay => exact keyed
  | @key _ _ _ name _ _ live before => exact before.declare live name
  | @enter _ _ _ name _ _ live before =>
    have ⟨declared, keys, listed⟩ := before.declare live name
    exact ⟨List.forall_mem_cons.mpr ⟨declared?_declare_self, declared⟩, keys, listed⟩
  | leave _ before =>
    exact ⟨fun owner member => before.owners owner (List.mem_cons_of_mem _ member), before.keys,
      before.listed⟩
  | entry _ _ _ held before => exact before.addEntry held

end BuildGraph.Draft
