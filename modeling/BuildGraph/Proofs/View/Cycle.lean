import BuildGraph.Proofs.Cycle
import BuildGraph.Proofs.View.Tree

/-! The walk of the tree view marks a cycle exactly when the search for a cycle finds one.

The walk starts at the targets nothing depends on, the search at the targets in order, and the
search stops where the walk goes on. Both leave all targets behind if no cycle is met on the way.
-/

set_option autoImplicit false

namespace BuildGraph

namespace Tree

variable {store : Store} {fresh ids left : List TargetId} {visits others : List Visit}

theorem Leftovers.cyclic (leftovers : Leftovers store fresh ids visits)
    (marked : ∃ visit ∈ visits, visit.mark = .cycle) : store.Cyclic := by
  obtain ⟨visit, member, mark⟩ := marked
  induction leftovers with
  | nil => cases member
  | start unmet walks next ih =>
    obtain member | member := List.mem_append.mp member
    · exact walks.cyclic (.start _) ⟨visit, member, mark⟩
    · exact ih member
  | skip met next ih => exact ih member

/-- Without a cycle mark, the leftovers end with what was behind before and with all of `ids`
behind. -/
theorem Leftovers.settled (leftovers : Leftovers store fresh ids visits)
    (held : ∀ id ∈ ids, id < store.size) (clear : ∀ visit ∈ visits, visit.mark ≠ .cycle)
    (nodup : fresh.Nodup) (settled : store.Settled (Behind store [] fresh)) :
    ∃ done, store.Settled done ∧ (∀ id, Behind store [] fresh id → done id) ∧
      ∀ id ∈ ids, done id := by
  induction leftovers with
  | nil => exact ⟨_, settled, fun _ behind => behind, nofun⟩
  | start unmet walks next ih =>
    obtain ⟨clearFirst, clear⟩ := List.forall_mem_append.mp clear
    obtain ⟨settled, first⟩ := walks.settled clearFirst nodup settled
    obtain ⟨done, settled, kept, all⟩ :=
      ih (List.forall_mem_cons.mp held).2 clear (nodup.sublist walks.sublist) settled
    refine ⟨done, settled, fun id behind => kept id (walks.behind behind), ?_⟩
    exact List.forall_mem_cons.mpr ⟨kept _ (first _ (List.mem_singleton_self _)), all⟩
  | skip met next ih =>
    obtain ⟨first, held⟩ := List.forall_mem_cons.mp held
    obtain ⟨done, settled, kept, all⟩ := ih held clear nodup settled
    exact ⟨done, settled, kept, List.forall_mem_cons.mpr ⟨kept _ ⟨first, nofun, met⟩, all⟩⟩

end Tree

namespace Store

variable {store : Store}

theorem treeWalk_cycle_iff (closed : Tree.Closed store) :
    (∃ visit ∈ store.treeWalk, visit.mark = .cycle) ↔ store.Cyclic := by
  have held : ∀ id ∈ store.ids, id < store.size := fun id => List.mem_range.mp
  have walks : Tree.Walks store [] store.ids store.roots _ _ :=
    Tree.walk_walks closed fun id root => (mem_roots.mp root).1
  have leftovers : Tree.Leftovers store (Tree.walk store [] store.ids store.roots).fresh
      store.ids _ := Tree.leftovers_walks closed held
  constructor
  · rintro ⟨visit, member, mark⟩
    obtain member | member := List.mem_append.mp member
    · exact walks.cyclic (.start _) ⟨visit, member, mark⟩
    · exact leftovers.cyclic ⟨visit, member, mark⟩
  · intro cyclic
    by_contra unmarked
    -- A view without a mark leaves all targets behind, and then there is no cycle.
    have clear : ∀ visit ∈ store.treeWalk, visit.mark ≠ .cycle :=
      fun visit member mark => unmarked ⟨visit, member, mark⟩
    obtain ⟨clearRooted, clearOthers⟩ := List.forall_mem_append.mp clear
    obtain ⟨settled, -⟩ :=
      walks.settled clearRooted List.nodup_range (Tree.settled_start store)
    obtain ⟨done, settled, -, all⟩ := leftovers.settled held clearOthers
      (List.nodup_range.sublist walks.sublist) settled
    exact settled.not_cyclic (fun id known => all id (List.mem_range.mpr known)) cyclic

end Store

end BuildGraph
