import BuildGraph.Proofs.Cycle
import Mathlib.Data.List.Cycle

/-! The cycle that is found is a cycle of the store, told from its smallest number on.

A search that fails has come back to its path. The part of the path from there on is closed along
edges and repeats no target. It is then turned, which keeps its edges, the closing one included.
-/

set_option autoImplicit false

namespace BuildGraph

/-! ## Turning a closed path -/

namespace Cycle

/-- Turning depends on the ring alone, and not on what closes it. The ring is rotated to its
smallest number, which then closes it. -/
theorem exists_fromLeast_eq {ring : List TargetId} (nonempty : ring ≠ []) (last : TargetId) :
    ∃ least rest, fromLeast (ring ++ [last]) = least :: (rest ++ [least]) ∧
      ring.IsRotated (least :: rest) ∧ ∀ id ∈ ring, least ≤ id := by
  cases smallest : ring.min? with
  | none => exact absurd (List.min?_eq_none_iff.mp smallest) nonempty
  | some least =>
    obtain ⟨member, least_le⟩ := List.min?_eq_some_iff.mp smallest
    have place := List.idxOf_lt_length_of_mem member
    have turned : ring.drop (ring.idxOf least) ++ ring.take (ring.idxOf least) =
        least :: (ring.drop (ring.idxOf least + 1) ++ ring.take (ring.idxOf least)) := by
      rw [List.drop_eq_getElem_cons place, List.getElem_idxOf, List.cons_append]
    refine ⟨least, ring.drop (ring.idxOf least + 1) ++ ring.take (ring.idxOf least), ?_, ?_,
      least_le⟩
    · simp only [fromLeast, List.dropLast_concat, smallest, turned, List.cons_append]
    · refine ⟨ring.idxOf least, ?_⟩
      rw [List.rotate_eq_drop_append_take (Nat.le_of_lt place), turned]

theorem isChain_of_isRotated {relation : TargetId → TargetId → Prop} {first other : TargetId}
    {rest others : List TargetId} (turned : (first :: rest).IsRotated (other :: others))
    (around : (first :: (rest ++ [first])).IsChain relation) :
    (other :: (others ++ [other])).IsChain relation := by
  rw [← Cycle.chain_coe_cons] at around ⊢
  rwa [← Cycle.coe_eq_coe.mpr turned]

theorem closing_append {front back : List TargetId} {id : TargetId} (outside : id ∉ front) :
    closing (front ++ id :: back) id = id :: (front.reverse ++ [id]) := by
  have nearer : ∀ other ∈ front, decide (other ≠ id) = true := fun other member =>
    decide_eq_true fun same => outside (same ▸ member)
  rw [closing, List.takeWhile_append_of_pos nearer, List.takeWhile_cons_of_neg (by simp),
    List.append_nil]

end Cycle

namespace Store

variable {store : Store} {path rest : List TargetId} {id : TargetId}

/-- A closed path along edges that repeats no target and starts at its smallest number. -/
structure CanonicalCycle (store : Store) (cycle : List TargetId) : Prop where
  length : 2 ≤ cycle.length
  closed : cycle.head? = cycle.getLast?
  nodup : cycle.dropLast.Nodup
  trail : cycle.IsChain store.DependsOn
  least : ∀ first ∈ cycle.head?, ∀ id ∈ cycle, first ≤ id

/-! ## The path that is closed -/

/-- The open targets from one of them on, and the edge that leads back to it. -/
theorem Descends.closing (descends : store.Descends path (id :: rest)) (around : id ∈ path) :
    ∃ below, Cycle.closing path id = id :: (below ++ [id]) ∧ (id :: below).Nodup ∧
      (id :: (below ++ [id])).IsChain store.DependsOn := by
  obtain ⟨front, back, rfl, outside⟩ := List.eq_append_cons_of_mem around
  refine ⟨front.reverse, Cycle.closing_append outside, ?_, ?_⟩
  · have nodup : (front ++ [id]).Nodup := by
      have whole := descends.nodup
      rw [List.append_cons] at whole
      exact whole.of_append_left
    rw [← List.reverse_concat]
    exact List.nodup_reverse.mpr nodup
  · -- The edge that leads back goes before the trail, which is then told from its other end.
    have trail : (id :: (front ++ id :: back)).IsChain fun nearer farther =>
        store.DependsOn farther nearer :=
      List.isChain_cons.mpr
        ⟨fun last nearest => descends.listed last nearest id List.mem_cons_self, descends.trail⟩
    rw [List.append_cons, ← List.cons_append] at trail
    have back := List.isChain_reverse.mpr trail.left_of_append
    simpa using back

theorem canonicalCycle_of_cycle? {cycle : List TargetId} (found : store.cycle? = some cycle) :
    store.CanonicalCycle cycle := by
  obtain ⟨path, id, rest, descends, around, rfl⟩ :=
    descends_of_searchCycle (.start _) (cycle?_eq_some_iff.mp found)
  obtain ⟨below, closed, nodup, trail⟩ := descends.closing around
  rw [closed, ← List.cons_append]
  obtain ⟨least, others, turned, rotated, least_le⟩ :=
    Cycle.exists_fromLeast_eq (List.cons_ne_nil id below) id
  rw [turned]
  constructor
  · simp
  · rw [← List.cons_append, List.getLast?_concat]
    rfl
  · rw [← List.cons_append, List.dropLast_concat]
    exact rotated.nodup_iff.mp nodup
  · exact Cycle.isChain_of_isRotated rotated trail
  · rintro first ⟨⟩ other member
    rw [← List.cons_append, List.mem_append, List.mem_singleton] at member
    rcases member with member | rfl
    · exact least_le other (rotated.mem_iff.mpr member)
    · exact Nat.le_refl _

end Store

end BuildGraph
