import BuildGraph.Proofs.Store.Arranged
import BuildGraph.Proofs.Verdict.Alike
import Mathlib.Data.List.Permutation

/-! The order in which edges are added does not matter to the report.

Usages change as edges come in, and the searches follow the dependency lists. But a usage can be
told from the edges there are in the end, and a verdict from the sets of dependencies.
-/

set_option autoImplicit false

namespace BuildGraph.Store

variable {store other : Store}

namespace Reordered

theorem traits (reordered : store.Reordered other) (id : TargetId) :
    (other.get? id).map Target.traits = (store.get? id).map Target.traits := by
  have pair := reordered id
  generalize store.get? id = held, other.get? id = heldToo at pair ⊢
  cases pair with
  | none => rfl
  | some same =>
    rw [same.1]
    rfl

theorem edges (reordered : store.Reordered other) (id : TargetId) :
    (other.edges id).Perm (store.edges id) := by
  have pair := reordered id
  unfold Store.edges
  generalize store.get? id = held, other.get? id = heldToo at pair ⊢
  cases pair with
  | none => exact List.Perm.refl _
  | some same => exact same.2

theorem alike (reordered : store.Reordered other) :
    Alike (Equiv.refl TargetId) store other where
  traits := reordered.traits
  dependsOn owner _ := (reordered.edges owner).mem_iff

theorem size (reordered : store.Reordered other) : other.size = store.size :=
  eq_of_forall_lt_iff fun _ => reordered.alike.lt_size_iff

theorem verdict? (reordered : store.Reordered other) (coherent : store.Coherent)
    (coherentToo : other.Coherent) (id : TargetId) : other.verdict? id = store.verdict? id :=
  reordered.alike.verdict? coherent coherentToo id

theorem cycle?_isSome (reordered : store.Reordered other) (coherent : store.Coherent)
    (coherentToo : other.Coherent) : other.cycle?.isSome = store.cycle?.isSome :=
  reordered.alike.cycle?_isSome coherent coherentToo

/-- A report is told by the verdicts, apart from the cycle. -/
theorem report (reordered : store.Reordered other) (coherent : store.Coherent)
    (coherentToo : other.Coherent) : other.report.verdicts = store.report.verdicts ∧
      other.report.project = store.report.project := by
  have ids : other.ids = store.ids := by rw [Store.ids, reordered.size, Store.ids]
  have verdict := funext (reordered.verdict? coherent coherentToo)
  simp only [Store.report, ids, verdict, and_self]

end Reordered

/-- Targets are added under accepted names, and then some are linked and some declared. With the
same links and declarations in another order the targets are the same but for the order of their
dependencies. All verdicts are the same, and a cycle is reported either both times or not at all.
No call fails unless a target is declared that is not there. -/
theorem arranged_reports {names : List String} {edges : List (TargetId × TargetId)}
    {declared : TargetId → Prop} {first second : List Call}
    (accepted : ∀ raw ∈ names, ∃ name, TargetName.ofString raw = .ok name)
    (bounded : ∀ edge ∈ edges, edge.1 < names.length ∧ edge.2 < names.length)
    (arranges : Arranges edges declared first) (arrangesToo : Arranges edges declared second) :
    ∃ store other,
      (names.map Call.add ++ first).foldl after .empty = store ∧
      (names.map Call.add ++ second).foldl after .empty = other ∧
      store.size = names.length ∧ store.Reordered other ∧
      (∀ id, other.verdict? id = store.verdict? id) ∧
      other.report.verdicts = store.report.verdicts ∧
      other.report.project = store.report.project ∧
      other.report.cycle.isSome = store.report.cycle.isSome ∧
      ((∀ id, declared id → id < names.length) →
        (names.map Call.add ++ first).foldlM attempt .empty = some store ∧
        (names.map Call.add ++ second).foldlM attempt .empty = some other) := by
  obtain ⟨added, size⟩ := foldlM_adds .empty names accepted
  have built : ((names.map Call.add).foldl after .empty).Built := Built.empty.calls _
  rw [List.foldl_append, List.foldl_append, List.foldlM_append, List.foldlM_append, added]
  generalize (names.map Call.add).foldl after .empty = base at size built ⊢
  have count : base.size = names.length := size.trans (Nat.zero_add _)
  rw [← count] at bounded ⊢
  -- Both orders start from the same targets, and every call is about targets that are there.
  have reordered := built.reordered_calls arranges arrangesToo bounded
  have coherent := (built.calls first).coherent
  have coherentToo := (built.calls second).coherent
  have fit := arranges.fits bounded
  have fitToo := arrangesToo.fits bounded
  obtain ⟨verdicts, project⟩ := reordered.report coherent coherentToo
  refine ⟨_, _, rfl, rfl, (wired_calls first fit).size, reordered,
    reordered.verdict? coherent coherentToo, verdicts, project,
    reordered.cycle?_isSome coherent coherentToo, ?_⟩
  intro known
  constructor
  · exact foldlM_calls first fit fun id member => known id ((arranges.declares id).mp member)
  · exact foldlM_calls second fitToo fun id member => known id ((arrangesToo.declares id).mp member)

/-- Of two cycles the one that is reported may be another one. -/
theorem arranged_reports_two_cycles :
    let adds := ["x", "a*", "b*"].map Call.add
    let first := [Call.link 0 1, .declare 0, .link 0 2, .link 1 0, .link 2 0]
    let second := [Call.link 2 0, .link 0 2, .declare 0, .link 0 1, .link 1 0, .declare 0]
    let store : Store := ⟨[⟨0, "x", .library, none, [1, 2], true⟩,
      ⟨1, "a", .executable, some .executable, [0], false⟩,
      ⟨2, "b", .executable, some .executable, [0], false⟩]⟩
    let other : Store := ⟨[⟨0, "x", .library, none, [2, 1], true⟩,
      ⟨1, "a", .executable, some .executable, [0], false⟩,
      ⟨2, "b", .executable, some .executable, [0], false⟩]⟩
    (adds ++ first).foldlM attempt .empty = some store ∧
      (adds ++ second).foldlM attempt .empty = some other ∧
      store.report.cycle = some [0, 1, 0] ∧ other.report.cycle = some [0, 2, 0] ∧
      store.report.project = .invalid 0 .ambiguous ∧
      other.report.project = .invalid 0 .ambiguous := by
  intro adds first second store other
  have accepted : ∀ raw ∈ ["x", "a*", "b*"], ∃ name, TargetName.ofString raw = .ok name := by
    simp only [List.forall_mem_cons]
    exact ⟨⟨_, rfl⟩, ⟨_, rfl⟩, ⟨_, rfl⟩, nofun⟩
  have arranges : Arranges [(0, 1), (0, 2), (1, 0), (2, 0)] (· = 0) first :=
    ⟨.refl _, by simp [first], by simp [first, Call.edge?]⟩
  have arrangesToo : Arranges [(0, 1), (0, 2), (1, 0), (2, 0)] (· = 0) second :=
    ⟨by decide, by simp [second], by simp [second, Call.edge?]⟩
  obtain ⟨_, _, rfl, rfl, -, -, -, -, project, -, run⟩ :=
    arranged_reports accepted (by decide) arranges arrangesToo
  obtain ⟨runFirst, runSecond⟩ := run (by simp)
  have ambiguous : store.report.project = .invalid 0 .ambiguous := by cbv
  exact ⟨runFirst, runSecond, by cbv, by cbv, ambiguous, project.trans ambiguous⟩

end BuildGraph.Store
