import BuildGraph.Proofs.Store.Graph
import BuildGraph.Verdict

/-! The search below a target finds an executable leaf exactly when there is one.

The graph may have cycles and repeated edges. A search that finds nothing has met everything
that it could: what it met leads to what it met, or back to the target it started from.
-/

set_option autoImplicit false

namespace BuildGraph.Store

open Relation (ReflTransGen TransGen)

variable {store : Store} {root id : TargetId} {unseen pending : List TargetId}

theorem lt_of_isExecutableLeaf (leaf : store.isExecutableLeaf id = true) : id < store.size := by
  obtain held | unknown := Nat.lt_or_ge id store.size
  · exact held
  · simp [isExecutableLeaf, isExecutable, get?_eq_none_iff.mpr unknown] at leaf

theorem leaf_of_findsLeaf (found : store.findsLeaf root unseen pending = true) :
    ∃ start ∈ pending, ∃ leaf, ReflTransGen store.DependsOn start leaf ∧ leaf ≠ root ∧
      store.isExecutableLeaf leaf = true := by
  fun_induction findsLeaf store root unseen pending with
  | case1 unseen => cases found
  | case2 unseen pending ih =>
    obtain ⟨start, member, below⟩ := ih found
    exact ⟨start, List.mem_cons_of_mem _ member, below⟩
  | case3 unseen id pending different fresh ih =>
    -- The target on top is the leaf, or the search goes on below it and on the rest of the stack.
    obtain leaf | later := Bool.or_eq_true_iff.mp found
    · exact ⟨id, List.mem_cons_self, id, .refl, different, leaf⟩
    · obtain ⟨start, member, leaf, path, rest⟩ := ih later
      obtain next | member := List.mem_append.mp member
      · have edge : store.DependsOn id start := List.mem_reverse.mp next
        exact ⟨id, List.mem_cons_self, leaf, .head edge path, rest⟩
      · exact ⟨start, List.mem_cons_of_mem _ member, leaf, path, rest⟩
  | case4 unseen id pending different met ih =>
    obtain ⟨start, member, below⟩ := ih found
    exact ⟨start, List.mem_cons_of_mem _ member, below⟩

/-- Where a search ends that finds nothing: `left` is what it has not met of `unseen`. -/
structure Exhausted (store : Store) (root : TargetId) (unseen pending left : List TargetId) :
    Prop where
  within : left ⊆ unseen
  stack : ∀ id ∈ pending, id = root ∨ id ∉ left
  barren : ∀ id ∈ unseen, id ∉ left → store.isExecutableLeaf id = false
  closed : ∀ id ∈ unseen, id ∉ left → ∀ next, store.DependsOn id next → next = root ∨ next ∉ left

theorem exhausted_of_findsLeaf (failed : store.findsLeaf root unseen pending = false)
    (nodup : unseen.Nodup) : ∃ left, store.Exhausted root unseen pending left := by
  fun_induction findsLeaf store root unseen pending with
  | case1 unseen =>
    exact ⟨unseen, fun _ member => member, nofun, fun _ member missed => absurd member missed,
      fun _ member missed => absurd member missed⟩
  | case2 unseen pending ih =>
    obtain ⟨left, within, stack, barren, closed⟩ := ih failed nodup
    exact ⟨left, within, List.forall_mem_cons.mpr ⟨.inl rfl, stack⟩, barren, closed⟩
  | case3 unseen id pending different fresh ih =>
    obtain ⟨barrenHere, failed⟩ := Bool.or_eq_false_iff.mp failed
    obtain ⟨left, within, stack, barren, closed⟩ := ih failed (nodup.erase id)
    -- The target on top has been met, and all that it leads to is on the stack of what follows.
    have met : id ∉ left := fun member => nodup.not_mem_erase (within member)
    refine ⟨left, fun other member => List.mem_of_mem_erase (within member), ?_, ?_, ?_⟩
    · refine List.forall_mem_cons.mpr ⟨.inr met, fun other member => ?_⟩
      exact stack other (List.mem_append_right _ member)
    · intro other member missed
      by_cases same : other = id
      · rw [same, barrenHere]
      · exact barren other ((List.mem_erase_of_ne same).mpr member) missed
    · intro other member missed next edge
      by_cases same : other = id
      · subst same
        exact stack next (List.mem_append_left _ (List.mem_reverse.mpr edge))
      · exact closed other ((List.mem_erase_of_ne same).mpr member) missed next edge
  | case4 unseen id pending different met ih =>
    obtain ⟨left, within, stack, barren, closed⟩ := ih failed nodup
    have missed : id ∉ left := fun member => met (within member)
    exact ⟨left, within, List.forall_mem_cons.mpr ⟨.inr missed, stack⟩, barren, closed⟩

theorem isAnchored_iff : store.isAnchored root = true ↔
    ∃ leaf, leaf ≠ root ∧ store.LeadsTo root leaf ∧ store.isExecutableLeaf leaf = true := by
  constructor
  · intro found
    obtain ⟨start, member, leaf, path, different, isLeaf⟩ := leaf_of_findsLeaf found
    have edge : store.DependsOn root start := List.mem_reverse.mp member
    exact ⟨leaf, different, TransGen.head' edge path, isLeaf⟩
  · rintro ⟨leaf, different, path, isLeaf⟩
    cases found : store.isAnchored root with
    | true => rfl
    | false =>
      obtain ⟨left, -, stack, barren, closed⟩ := exhausted_of_findsLeaf found List.nodup_range
      have start : ∀ next, store.DependsOn root next → next = root ∨ next ∉ left :=
        fun next edge => stack next (List.mem_reverse.mpr edge)
      -- From the root on, a path stays among what was met, or comes back to the root.
      have met : leaf = root ∨ leaf ∉ left := by
        clear isLeaf different
        induction path with
        | single edge => exact start _ edge
        | @tail middle last _ edge ih =>
          obtain rfl | missed := ih
          · exact start last edge
          · exact closed middle (List.mem_range.mpr (lt_of_dependsOn edge)) missed last edge
      have held := List.mem_range.mpr (lt_of_isExecutableLeaf isLeaf)
      rw [barren leaf held (met.resolve_left different)] at isLeaf
      cases isLeaf

end BuildGraph.Store
