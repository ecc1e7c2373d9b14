import BuildGraph.Store

/-! The first dependency cycle of a store.

The search goes depth first along the dependency lists, starting from the
targets in order. It carries the path from the start to the current target and
the targets not met so far. Cycles are legal; one is reported as a closed path
that starts at its smallest number.
-/

set_option autoImplicit false

namespace BuildGraph

namespace Cycle

/-- Turn a closed path so that it starts at the smallest number on it. -/
def fromLeast (cycle : List TargetId) : List TargetId :=
  let ring := cycle.dropLast
  match ring.min? with
  | none => cycle
  | some least =>
    let start := ring.idxOf least
    ring.drop start ++ ring.take start ++ [least]

/-- The closed path from a target on `path`, whose nearest target comes first, back to it. -/
def closing (path : List TargetId) (id : TargetId) : List TargetId :=
  id :: ((path.takeWhile (· ≠ id)).reverse ++ [id])

end Cycle

namespace Store

/-- Search from targets one after the other, below the open ones on `path`, the nearest first.
The targets not met so far are `fresh`, and those still fresh are left. A target that is open
fails with the cycle that it closes. -/
def searchCycle (store : Store) (path fresh : List TargetId) :
    List TargetId → Except (List TargetId) { left : List TargetId // left.length ≤ fresh.length }
  | [] => .ok ⟨fresh, Nat.le_refl _⟩
  | id :: rest =>
    if id ∈ path then .error (Cycle.fromLeast (Cycle.closing path id))
    else if unmet : id ∈ fresh then
      have fewer : (fresh.erase id).length < fresh.length := by
        rw [List.length_erase_of_mem unmet]
        exact Nat.sub_one_lt_of_lt (List.length_pos_of_mem unmet)
      match store.searchCycle (id :: path) (fresh.erase id) (store.edges id) with
      | .error cycle => .error cycle
      | .ok ⟨middle, fewerLeft⟩ =>
        match store.searchCycle path middle rest with
        | .error cycle => .error cycle
        | .ok ⟨left, bounded⟩ =>
          .ok ⟨left, Nat.le_trans bounded (Nat.le_trans fewerLeft (Nat.le_of_lt fewer))⟩
    else store.searchCycle path fresh rest
termination_by ids => (fresh.length, ids.length)
decreasing_by
  · exact Prod.Lex.left _ _ fewer
  · exact Prod.Lex.left _ _ (Nat.lt_of_le_of_lt fewerLeft fewer)
  · exact Prod.Lex.right _ (Nat.lt_succ_self _)

/-- One dependency cycle, if there is any. -/
def cycle? (store : Store) : Option (List TargetId) :=
  match store.searchCycle [] store.ids store.ids with
  | .error cycle => some cycle
  | .ok _ => none

theorem cycle?_eq_some_iff {store : Store} {cycle : List TargetId} :
    store.cycle? = some cycle ↔ store.searchCycle [] store.ids store.ids = .error cycle := by
  rw [cycle?]
  cases store.searchCycle [] store.ids store.ids <;> simp

end Store

end BuildGraph
