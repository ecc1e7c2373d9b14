import BuildGraph.Proofs.Cycle.Canonical

/-! Every cycle is told in one way.

A ring of targets can be told from any of them on, and closed by the one that it was told from.
Turned to its smallest number, it is told alike wherever one starts, and along the same edges. The
turn can be made within the path, whose last entry is then overwritten.
-/

set_option autoImplicit false

namespace BuildGraph

namespace Cycle

variable {ring other rest others : List TargetId} {id least : TargetId}

def close (ring : List TargetId) : List TargetId := ring ++ ring.head?.toList

theorem close_cons (id : TargetId) (rest : List TargetId) :
    close (id :: rest) = id :: (rest ++ [id]) := rfl

theorem length_close (nonempty : ring ≠ []) : (close ring).length = ring.length + 1 := by
  obtain ⟨id, rest, rfl⟩ := List.exists_cons_of_ne_nil nonempty
  simp [close_cons]

theorem close_injective : Function.Injective close := by
  have back : ∀ ring, (close ring).dropLast = ring := by
    rintro (_ | ⟨id, rest⟩)
    · rfl
    · exact List.dropLast_concat
  exact Function.LeftInverse.injective back

/-! ## Edges around a ring -/

theorem consecutivePairs_close (ring : List TargetId) :
    (close ring).consecutivePairs = ring.zip (ring.rotate 1) := by
  cases ring with
  | nil => rfl
  | cons id rest =>
    have aligned : (id :: rest).length = (rest ++ [id]).length := by simp
    calc (close (id :: rest)).consecutivePairs
        = ((id :: rest) ++ [id]).zip ((rest ++ [id]) ++ []) := by
          rw [List.append_nil]
          rfl
      _ = (id :: rest).zip (rest ++ [id]) := by
          rw [List.zip_append aligned, List.zip_nil_right, List.append_nil]
      _ = (id :: rest).zip ((id :: rest).rotate 1) := by
          rw [List.rotate_cons_succ, List.rotate_zero]

theorem consecutivePairs_isRotated (turned : ring.IsRotated other) :
    (close ring).consecutivePairs.IsRotated (close other).consecutivePairs := by
  obtain ⟨places, rfl⟩ := turned
  refine ⟨places, ?_⟩
  rw [consecutivePairs_close, consecutivePairs_close, List.rotate_rotate, Nat.add_comm places,
    ← List.rotate_rotate]
  exact List.zipWith_rotate_distrib Prod.mk ring (ring.rotate 1) places (by simp)

/-! ## The smallest number -/

/-- A ring without repetitions is told in one way from each of its targets on. -/
theorem rest_unique (distinct : (id :: rest).Nodup)
    (turned : (id :: rest).IsRotated (id :: others)) : rest = others := by
  obtain ⟨places, bounded, told⟩ := List.isRotated_iff_mod.mp turned
  have still : (id :: rest).rotate places = id :: rest := by
    obtain inside | whole := Nat.lt_or_eq_of_le bounded
    · have first : (id :: rest)[places]? = (id :: rest)[0]? := by
        rw [← List.head?_rotate inside, told]
        rfl
      rw [(List.getElem?_inj inside distinct).mp first, List.rotate_zero]
    · rw [whole, List.rotate_length]
  exact (List.cons.inj (still.symm.trans told)).2

/-- What comes of a turn goes around the same ring, from its smallest number on. -/
theorem exists_fromLeast_close (nonempty : ring ≠ []) :
    ∃ least rest, fromLeast (close ring) = close (least :: rest) ∧
      ring.IsRotated (least :: rest) ∧ ∀ id ∈ ring, least ≤ id := by
  obtain ⟨first, rest, rfl⟩ := List.exists_cons_of_ne_nil nonempty
  exact exists_fromLeast_eq nonempty first

theorem fromLeast_close_of_isRotated (distinct : ring.Nodup) (turned : ring.IsRotated other) :
    fromLeast (close ring) = fromLeast (close other) := by
  by_cases empty : ring = []
  · subst empty
    rw [← List.isRotated_nil_iff'.mp turned]
  · have nonempty : other ≠ [] := fun gone => empty (List.isRotated_nil_iff.mp (gone ▸ turned))
    obtain ⟨least, rest, told, around, least_le⟩ := exists_fromLeast_close empty
    obtain ⟨least', others, told', around', least_le'⟩ := exists_fromLeast_close nonempty
    -- Both turns begin with the smallest number, and there is one way to go on from it.
    have same : least = least' := by
      apply Nat.le_antisymm
      · exact least_le _ (turned.mem_iff.mpr (around'.mem_iff.mpr List.mem_cons_self))
      · exact least_le' _ (turned.mem_iff.mp (around.mem_iff.mpr List.mem_cons_self))
    subst same
    obtain rfl := rest_unique (around.nodup_iff.mp distinct)
      (around.symm.trans (turned.trans around'))
    rw [told, told']

theorem isRotated_of_fromLeast_close_eq (nonempty : ring ≠ [])
    (same : fromLeast (close ring) = fromLeast (close other)) : ring.IsRotated other := by
  obtain ⟨least, rest, told, around, -⟩ := exists_fromLeast_close nonempty
  by_cases empty : other = []
  · subst empty
    rw [told] at same
    cases same
  · obtain ⟨least', others, told', around', -⟩ := exists_fromLeast_close empty
    have alike := close_injective (told.symm.trans (same.trans told'))
    exact around.trans (alike ▸ around'.symm)

/-! ## A turn within the path -/

/-- All but the last entry move to the left, as far as the first of the smallest ones is from the
start. The last one is overwritten by what then comes first. -/
def turnInPlace (cycle : List TargetId) : List TargetId :=
  if cycle.length < 2 then cycle
  else
    let last := cycle.length - 1
    let start := ((cycle.take last).minIdxOn? fun id => id).getD 0
    let front := (cycle.take last).rotate start
    match front.head?, cycle.drop last with
    | some first, _ :: after => front ++ first :: after
    | _, after => front ++ after

theorem minIdxOn?_of_min? (smallest : ring.min? = some least) :
    ring.minIdxOn? (fun id => id) = some (ring.idxOf least) := by
  obtain ⟨member, least_le⟩ := List.min?_eq_some_iff.mp smallest
  have nonempty : ring ≠ [] := List.ne_nil_of_mem member
  have place := List.idxOf_lt_length_of_mem member
  rw [List.minIdxOn?_eq_some_minIdxOn nonempty, Option.some_inj, List.minIdxOn_eq_iff nonempty]
  refine ⟨place, fun position held => ?_, fun earlier before => ?_⟩
  · rw [List.getElem_idxOf]
    exact least_le _ (List.getElem_mem held)
  · rw [List.getElem_idxOf]
    have different : ring[earlier] ≠ least := by
      simpa using List.not_of_lt_findIdx before
    exact Nat.lt_of_le_of_ne (least_le _ (List.getElem_mem _)) different.symm

/-- Nothing is lost where the path was split for the turn. -/
theorem turnInPlace_eq (cycle : List TargetId) : turnInPlace cycle = fromLeast cycle := by
  obtain rfl | ⟨ring, last, rfl⟩ := cycle.eq_nil_or_concat'
  · rfl
  cases smallest : ring.min? with
  | none =>
    obtain rfl := List.min?_eq_none_iff.mp smallest
    rfl
  | some least =>
    have member := (List.min?_eq_some_iff.mp smallest).1
    have place := List.idxOf_lt_length_of_mem member
    have long : ¬ (ring ++ [last]).length < 2 := by
      have held := List.length_pos_of_mem member
      simp only [List.length_append, List.length_singleton]
      omega
    have front : (ring.rotate (ring.idxOf least)).head? = some least := by
      rw [List.head?_rotate place, List.getElem?_eq_getElem place, List.getElem_idxOf]
    have turned := List.rotate_eq_drop_append_take (Nat.le_of_lt place)
    rw [turnInPlace, if_neg long, List.length_append, List.length_singleton, Nat.add_sub_cancel]
    dsimp only
    rw [List.take_left, List.drop_left, minIdxOn?_of_min? smallest, Option.getD_some, front]
    simp only [fromLeast, List.dropLast_concat, smallest, turned]

/-- Two rings come to the same closed path just when one is the other told from elsewhere on. The
path is as long as what was turned, it starts and ends with the smallest number on the ring, it
takes the same edges in the same order around, and to turn it again changes nothing. A turn within
the path comes to the same. -/
theorem fromLeast_close_canonical (nonempty : ring ≠ []) (distinct : ring.Nodup) :
    (∀ other, fromLeast (close ring) = fromLeast (close other) ↔ ring.IsRotated other) ∧
      (fromLeast (close ring)).length = (close ring).length ∧
      (∃ least ∈ ring, (∀ id ∈ ring, least ≤ id) ∧
        (fromLeast (close ring)).head? = some least ∧
        (fromLeast (close ring)).getLast? = some least) ∧
      (fromLeast (close ring)).consecutivePairs.IsRotated (close ring).consecutivePairs ∧
      fromLeast (fromLeast (close ring)) = fromLeast (close ring) ∧
      turnInPlace (close ring) = fromLeast (close ring) := by
  obtain ⟨least, rest, told, around, least_le⟩ := exists_fromLeast_close nonempty
  have again : fromLeast (close ring) = fromLeast (close (least :: rest)) :=
    fromLeast_close_of_isRotated distinct around
  refine ⟨fun other => ⟨isRotated_of_fromLeast_close_eq nonempty, ?_⟩, ?_, ?_, ?_, ?_, ?_⟩
  · exact fromLeast_close_of_isRotated distinct
  · rw [told, length_close nonempty, length_close (List.cons_ne_nil least rest),
      around.perm.length_eq]
  · refine ⟨least, around.mem_iff.mpr List.mem_cons_self, least_le, ?_, ?_⟩
    · rw [told, close_cons, List.head?_cons]
    · rw [told, close_cons, ← List.cons_append, List.getLast?_concat]
  · rw [told]
    exact consecutivePairs_isRotated around.symm
  · exact (congrArg fromLeast told).trans again.symm
  · exact turnInPlace_eq _

/-- The smallest number is behind the middle of the ring. Told the other way round it is another
ring. -/
theorem fromLeast_close_canonical_behind :
    let ring : List TargetId := [7, 4, 9, 1, 3]
    ring ≠ [] ∧ ring.Nodup ∧ fromLeast (close ring) = [1, 3, 7, 4, 9, 1] ∧
      fromLeast (close [9, 1, 3, 7, 4]) = [1, 3, 7, 4, 9, 1] ∧
      fromLeast (close ring.reverse) ≠ [1, 3, 7, 4, 9, 1] ∧
      [(1, 3), (3, 7), (7, 4), (4, 9), (9, 1)].IsRotated (close ring).consecutivePairs ∧
      fromLeast [1, 3, 7, 4, 9, 1] = [1, 3, 7, 4, 9, 1] ∧
      turnInPlace [7, 4, 9, 1, 3, 7] = [1, 3, 7, 4, 9, 1] := by
  intro ring
  have nonempty : ring ≠ [] := by decide
  have distinct : ring.Nodup := by decide
  have told : fromLeast (close ring) = [1, 3, 7, 4, 9, 1] := by decide
  obtain ⟨alike, -, -, edges, again, inPlace⟩ := fromLeast_close_canonical nonempty distinct
  rw [told] at alike edges again inPlace
  refine ⟨nonempty, distinct, told, ?_, ?_, edges, again, inPlace⟩
  · exact ((alike _).mpr (by decide)).symm
  · exact fun same => absurd ((alike _).mp same.symm) (by decide)

end Cycle

end BuildGraph
