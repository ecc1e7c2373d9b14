import BuildGraph.Proofs.Store.Graph
import Mathlib.Logic.Equiv.Defs

/-! Stores that differ only in how their targets are numbered.

Nothing but the numbers themselves depends on the numbers: a renumbering keeps the names, the
usages, the declarations and the order of every dependency list.
-/

set_option autoImplicit false

namespace BuildGraph

namespace Target

variable {σ τ : Equiv.Perm TargetId}

def renumber (σ : Equiv.Perm TargetId) (target : Target) : Target :=
  { target with id := σ target.id, dependencies := target.dependencies.map σ }

@[simp] theorem name_renumber (target : Target) : (target.renumber σ).name = target.name := rfl

@[simp] theorem renumber_refl : renumber (Equiv.refl TargetId) = fun target => target := by
  funext target
  simp [renumber]

@[simp] theorem renumber_renumber (target : Target) :
    (target.renumber σ).renumber τ = target.renumber (σ.trans τ) := by
  simp [renumber]

theorem renumber_congr {target : Target} (same : σ target.id = τ target.id)
    (below : ∀ id ∈ target.dependencies, σ id = τ id) : target.renumber σ = target.renumber τ := by
  rw [renumber, renumber, same, List.map_congr_left below]

theorem renumber_ofName (id : TargetId) (name : TargetName) :
    (ofName id name).renumber σ = ofName (σ id) name := rfl

theorem renumber_declare (target : Target) :
    target.declare.renumber σ = (target.renumber σ).declare := rfl

theorem renumber_withDependency (target : Target) (dependency : TargetId) :
    (target.withDependency dependency).renumber σ =
      (target.renumber σ).withDependency (σ dependency) := by
  simp [renumber, withDependency]

theorem renumber_linkAsLibrary (target : Target) :
    target.linkAsLibrary.renumber σ = (target.renumber σ).linkAsLibrary := by
  have same : (target.renumber σ).usage = target.usage ∧ (target.renumber σ).hint = target.hint :=
    ⟨rfl, rfl⟩
  rw [linkAsLibrary, linkAsLibrary, same.1, same.2]
  -- Both or neither of the two is reclassified.
  split <;> rfl

end Target

namespace Store

variable {store other : Store} {σ : Equiv.Perm TargetId}

/-- The second store holds each target of the first one under the number that `σ` gives it. -/
def Renumbered (σ : Equiv.Perm TargetId) (store other : Store) : Prop :=
  ∀ id, other.get? (σ id) = (store.get? id).map (Target.renumber σ)

namespace Renumbered

theorem edges (renumbered : Renumbered σ store other) (id : TargetId) :
    other.edges (σ id) = (store.edges id).map σ := by
  rw [Store.edges, renumbered, Store.edges]
  cases store.get? id <;> rfl

end Renumbered

end Store

end BuildGraph
