import BuildGraph.Proofs.Cycle
import BuildGraph.Proofs.Store.Renumbered
import BuildGraph.Proofs.Verdict.Report

/-! Reports depend neither on how targets are numbered nor on the order of dependency lists.

The search for an executable and the search for a cycle follow numbers and lists, but what they look
for can be told without them.
-/

set_option autoImplicit false

namespace BuildGraph

def Target.traits (target : Target) : Usage × Option Usage × Bool :=
  (target.usage, target.hint, target.declared)

namespace Store

variable {store other : Store} {σ : Equiv.Perm TargetId} {id owner dependency : TargetId}

/-- Each target of the first store is in the second one under the number that `σ` gives it, with
the same traits and with the same set of dependencies. -/
structure Alike (σ : Equiv.Perm TargetId) (store other : Store) : Prop where
  traits : ∀ id, (other.get? (σ id)).map Target.traits = (store.get? id).map Target.traits
  dependsOn : ∀ owner dependency,
    other.DependsOn (σ owner) (σ dependency) ↔ store.DependsOn owner dependency

namespace Alike

theorem symm (alike : Alike σ store other) : Alike σ.symm other store where
  traits id := by
    have same := alike.traits (σ.symm id)
    rw [Equiv.apply_symm_apply] at same
    exact same.symm
  dependsOn owner dependency := by
    have same := alike.dependsOn (σ.symm owner) (σ.symm dependency)
    rw [Equiv.apply_symm_apply, Equiv.apply_symm_apply] at same
    exact same.symm

theorem hint? (alike : Alike σ store other) (id : TargetId) :
    other.hint? (σ id) = store.hint? id := by
  have same := congrArg (Option.map fun traits => traits.2.1) (alike.traits id)
  rwa [Option.map_map, Option.map_map] at same

theorem lt_size_iff (alike : Alike σ store other) : σ id < other.size ↔ id < store.size := by
  rw [← not_iff_not, Nat.not_lt, Nat.not_lt, ← get?_eq_none_iff, ← get?_eq_none_iff,
    ← Option.map_eq_none_iff (f := Target.traits), alike.traits, Option.map_eq_none_iff]

theorem edges_eq_nil (alike : Alike σ store other) (alone : store.edges id = []) :
    other.edges (σ id) = [] := by
  refine List.eq_nil_iff_forall_not_mem.mpr fun dependency edge => ?_
  rw [← σ.apply_symm_apply dependency] at edge
  have listed : store.DependsOn id (σ.symm dependency) := (alike.dependsOn _ _).mp edge
  rw [DependsOn, alone] at listed
  cases listed

theorem leadsTo (alike : Alike σ store other) (path : store.LeadsTo owner dependency) :
    other.LeadsTo (σ owner) (σ dependency) := by
  induction path with
  | single edge => exact .single ((alike.dependsOn _ _).mpr edge)
  | tail _ edge ih => exact .tail ih ((alike.dependsOn _ _).mpr edge)

/-! ## From one store to the other -/

theorem ambiguous (alike : Alike σ store other) (several : store.Ambiguous id) :
    other.Ambiguous (σ id) := by
  obtain ⟨a, b, edgeA, edgeB, different, markedA, markedB⟩ := several
  refine ⟨σ a, σ b, (alike.dependsOn _ _).mpr edgeA, (alike.dependsOn _ _).mpr edgeB,
    σ.injective.ne different, ?_, ?_⟩
  · exact (alike.hint? a).trans markedA
  · exact (alike.hint? b).trans markedB

theorem anchored (alike : Alike σ store other) (anchor : store.Anchored id) :
    other.Anchored (σ id) := by
  obtain ⟨leaf, different, path, alone, marked⟩ := anchor
  exact ⟨σ leaf, σ.injective.ne different, alike.leadsTo path, alike.edges_eq_nil alone,
    (alike.hint? leaf).trans marked⟩

theorem cyclic (alike : Alike σ store other) (around : store.Cyclic) : other.Cyclic := by
  obtain ⟨id, path⟩ := around
  exact ⟨σ id, alike.leadsTo path⟩

/-! ## Both ways -/

theorem ambiguous_iff (alike : Alike σ store other) :
    other.Ambiguous (σ id) ↔ store.Ambiguous id := by
  refine ⟨fun several => ?_, alike.ambiguous⟩
  simpa using alike.symm.ambiguous several

theorem anchored_iff (alike : Alike σ store other) :
    other.Anchored (σ id) ↔ store.Anchored id := by
  refine ⟨fun anchor => ?_, alike.anchored⟩
  simpa using alike.symm.anchored anchor

theorem cyclic_iff (alike : Alike σ store other) : other.Cyclic ↔ store.Cyclic :=
  ⟨alike.symm.cyclic, alike.cyclic⟩

theorem missesExecutable (alike : Alike σ store other) (misses : store.MissesExecutable id) :
    other.MissesExecutable (σ id) := by
  obtain ⟨target, held, executable, undeclared⟩ := misses.undeclared
  refine ⟨mt alike.ambiguous_iff.mp misses.clear, fun alone => misses.linked ?_, ?_,
    mt alike.anchored_iff.mp misses.unanchored⟩
  · simpa using alike.symm.edges_eq_nil alone
  · have same := alike.traits id
    rw [held, Option.map_some] at same
    obtain ⟨found, heldToo, traits⟩ := Option.map_eq_some_iff.mp same
    simp only [Target.traits, Prod.mk.injEq] at traits
    exact ⟨found, heldToo, traits.1.trans executable, traits.2.2.trans undeclared⟩

theorem missesExecutable_iff (alike : Alike σ store other) :
    other.MissesExecutable (σ id) ↔ store.MissesExecutable id := by
  refine ⟨fun misses => ?_, alike.missesExecutable⟩
  simpa using alike.symm.missesExecutable misses

theorem says_iff (alike : Alike σ store other) (verdict : Verdict) :
    other.Says (σ id) verdict ↔ store.Says id verdict := by
  cases verdict with
  | ambiguous => exact alike.ambiguous_iff
  | missingExecutable => exact alike.missesExecutable_iff
  | valid => exact and_congr (not_congr alike.ambiguous_iff) (not_congr alike.missesExecutable_iff)

theorem verdict? (alike : Alike σ store other) (coherent : store.Coherent)
    (coherentToo : other.Coherent) (id : TargetId) :
    other.verdict? (σ id) = store.verdict? id := by
  ext verdict
  rw [coherentToo.verdict?_iff, coherent.verdict?_iff, alike.lt_size_iff, alike.says_iff]

theorem cycle?_isSome (alike : Alike σ store other) (coherent : store.Coherent)
    (coherentToo : other.Coherent) : other.cycle?.isSome = store.cycle?.isSome := by
  rw [Bool.eq_iff_iff, cycle?_isSome_iff fun _ _ edge => coherent.closed edge,
    cycle?_isSome_iff fun _ _ edge => coherentToo.closed edge, alike.cyclic_iff]

end Alike

/-! ## Stores with other numbers -/

namespace Renumbered

theorem alike (renumbered : Renumbered σ store other) : Alike σ store other where
  traits id := by
    rw [renumbered, Option.map_map]
    rfl
  dependsOn owner dependency := by
    rw [DependsOn, renumbered.edges, List.mem_map_of_injective σ.injective, DependsOn]

theorem verdict? (renumbered : Renumbered σ store other) (coherent : store.Coherent)
    (coherentToo : other.Coherent) (id : TargetId) :
    other.verdict? (σ id) = store.verdict? id :=
  renumbered.alike.verdict? coherent coherentToo id

theorem cycle?_isSome (renumbered : Renumbered σ store other) (coherent : store.Coherent)
    (coherentToo : other.Coherent) : other.cycle?.isSome = store.cycle?.isSome :=
  renumbered.alike.cycle?_isSome coherent coherentToo

end Renumbered

end Store

end BuildGraph
