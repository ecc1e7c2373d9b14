import BuildGraph.Proofs.Store.Arranged
import BuildGraph.Proofs.View.Tree

/-! A long path with a cycle at its end.

All targets of the store lie on the path, so its walk goes as deep as a walk can go, and meets the
cycle below everything else.
-/

set_option autoImplicit false

namespace BuildGraph

namespace Tree

/-- Targets of which each depends on the next one alone, and the last one on itself. -/
inductive Lasso (store : Store) : TargetId → List TargetId → Prop where
  | loop {id : TargetId} (held : id < store.size) (edge : store.edges id = [id]) :
      Lasso store id []
  | step {id next : TargetId} {rest : List TargetId} (held : id < store.size)
      (edge : store.edges id = [next]) (tail : Lasso store next rest) :
      Lasso store id (next :: rest)

variable {store : Store} {path fresh rest : List TargetId} {id : TargetId}

theorem walk_expand (held : id < store.size) (outside : id ∉ path) (unmet : id ∈ fresh) :
    (walk store path fresh [id]).visits = ⟨id, path.length, .expanded⟩ ::
        (walk store (id :: path) (fresh.erase id) (store.edges id)).visits ∧
      (walk store path fresh [id]).fresh =
        (walk store (id :: path) (fresh.erase id) (store.edges id)).fresh := by
  rw [walk, if_neg (Nat.not_le.mpr held), if_neg outside, dif_pos unmet]
  simp [walk]

theorem walk_around (fresh : List TargetId) (held : id < store.size) (around : id ∈ path) :
    (walk store path fresh [id]).visits = [⟨id, path.length, .cycle⟩] ∧
      (walk store path fresh [id]).fresh = fresh := by
  rw [walk, if_neg (Nat.not_le.mpr held), if_pos around]
  simp [walk, Walk.after]

theorem leftovers_nil (store : Store) (ids : List TargetId) : leftovers store [] ids = [] := by
  induction ids with
  | nil => rfl
  | cons id rest ih => simpa [leftovers] using ih

/-- A walk down a lasso expands one target below the other and ends with the only visit that is
marked as a cycle. Nothing is left fresh. -/
theorem Lasso.walk (lasso : Lasso store id rest) (new : fresh.Perm (id :: rest))
    (apart : (id :: rest ++ path).Nodup) :
    (∃ front last, (Tree.walk store path fresh [id]).visits =
        front ++ [⟨last, path.length + (rest.length + 1), .cycle⟩] ∧
      ∀ visit ∈ front, visit.mark = .expanded) ∧
      (Tree.walk store path fresh [id]).fresh = [] := by
  induction lasso generalizing path fresh with
  | @loop id held edge =>
    obtain ⟨outside, -⟩ : id ∉ path ∧ path.Nodup := List.nodup_cons.mp apart
    obtain ⟨visits, left⟩ := walk_expand held outside (new.mem_iff.mpr List.mem_cons_self)
    have inside : id ∈ id :: path := List.mem_cons_self
    obtain ⟨around, kept⟩ := walk_around (fresh.erase id) held inside
    rw [edge] at visits left
    have none : fresh.erase id = [] := by simpa using new.erase id
    exact ⟨⟨[⟨id, path.length, .expanded⟩], id, by rw [visits, around]; rfl, by simp⟩,
      by rw [left, kept, none]⟩
  | @step id next rest held edge tail ih =>
    obtain ⟨outside, -⟩ := List.nodup_cons.mp apart
    obtain ⟨visits, left⟩ := walk_expand held
      (fun around => outside (List.mem_append_right _ around))
      (new.mem_iff.mpr List.mem_cons_self)
    rw [edge] at visits left
    have fewer : (fresh.erase id).Perm (next :: rest) := by simpa using new.erase id
    obtain ⟨⟨front, last, below, expanded⟩, none⟩ := ih fewer (List.perm_middle.nodup_iff.mpr apart)
    refine ⟨⟨⟨id, path.length, .expanded⟩ :: front, last, ?_, ?_⟩, left.trans none⟩
    · rw [visits, below, List.length_cons, List.length_cons, List.cons_append]
      congr 4
      omega
    · exact List.forall_mem_cons.mpr ⟨rfl, expanded⟩

end Tree

namespace Store

/-- The target after this one on a path from 1 up to `last` and on to 0, which depends on itself. -/
def lassoNext (last id : Nat) : Nat := if 0 < id ∧ id < last then id + 1 else 0

def lassoLinks (last : Nat) : List Call :=
  (List.range (last + 1)).map fun id => .link id (lassoNext last id)

def lassoCalls (last : Nat) : List Call :=
  (List.replicate (last + 1) "a").map .add ++ lassoLinks last

def lasso (last : Nat) : Store := (lassoCalls last).foldl after .empty

theorem edges_adds (store : Store) (names : List String) (id : TargetId) :
    ((names.map Call.add).foldl after store).edges id = store.edges id := by
  induction names generalizing store with
  | nil => rfl
  | cons raw rest ih =>
    rw [List.map_cons, List.foldl_cons, ih, after, add]
    cases TargetName.ofString raw <;> simp [Except.map]

theorem linkedBy_range (next : TargetId → TargetId) {size : Nat} {id : TargetId} (held : id < size) :
    linkedBy ((List.range size).map fun id => Call.link id (next id)) id = [next id] := by
  have mentioned : (List.range size).filter (· = id) = [id] := by
    rw [List.filter_eq, List.nodup_range.count, if_pos (List.mem_range.mpr held)]
    rfl
  simp [linkedBy, List.filterMap_map, Call.edge?, Function.comp_def, List.filter_map, mentioned]

theorem wired_lasso (last : Nat) :
    (lasso last).size = last + 1 ∧
      ∀ id < (lasso last).size, (lasso last).edges id = [lassoNext last id] := by
  let names := List.replicate (last + 1) "a"
  let base := (names.map Call.add).foldl after .empty
  have accepted : ∀ raw ∈ names, ∃ name, TargetName.ofString raw = .ok name := by
    intro raw member
    rw [List.eq_of_mem_replicate member]
    exact ⟨_, rfl⟩
  have size : base.size = last + 1 := by
    rw [(foldlM_adds .empty names accepted).2, List.length_replicate]
    exact Nat.zero_add _
  have fit : ∀ call ∈ lassoLinks last, call.Fits base.size := by
    refine List.forall_mem_map.mpr fun id member => ?_
    have next : lassoNext last id < last + 1 := by
      rw [lassoNext]
      split <;> omega
    rw [size]
    exact .link (List.mem_range.mp member) next
  have wired : Wired base (lassoLinks last) (lasso last) := by
    rw [lasso, lassoCalls, List.foldl_append]
    exact wired_calls _ fit
  refine ⟨wired.size.trans size, fun id held => ?_⟩
  rw [wired.size, size] at held
  rw [wired.edges, edges_adds, lassoLinks, linkedBy_range _ held]
  rfl

theorem lasso_dependsOn {last owner dependency : Nat} :
    (lasso last).DependsOn owner dependency ↔
      owner < last + 1 ∧ dependency = lassoNext last owner := by
  obtain ⟨size, edges⟩ := wired_lasso last
  rw [size] at edges
  constructor
  · intro edge
    have held : owner < last + 1 := size ▸ lt_of_dependsOn edge
    rw [DependsOn, edges owner held, List.mem_singleton] at edge
    exact ⟨held, edge⟩
  · rintro ⟨held, rfl⟩
    rw [DependsOn, edges owner held]
    exact List.mem_singleton_self _

theorem lasso_path {last : Nat} (count first : Nat) (positive : 0 < first)
    (reaches : first + count = last) :
    Tree.Lasso (lasso last) first (List.range' (first + 1) count ++ [0]) := by
  obtain ⟨size, edges⟩ := wired_lasso last
  have held : first < (lasso last).size := by omega
  have edge := edges first held
  rw [lassoNext] at edge
  induction count generalizing first with
  | zero =>
    rw [if_neg (show ¬ (0 < first ∧ first < last) by omega)] at edge
    have zero : 0 < (lasso last).size := by omega
    exact .step held edge (.loop zero (edges 0 zero))
  | succ count ih =>
    rw [if_pos (show 0 < first ∧ first < last by omega)] at edge
    have below : first + 1 < (lasso last).size := by omega
    exact .step held edge (ih (first + 1) (Nat.succ_pos first) (by omega) below (edges _ below))

theorem lasso_roots {last : Nat} (positive : 0 < last) : (lasso last).roots = [1] := by
  have free : ∀ id : Nat, id ∈ (lasso last).roots ↔ id ∈ [1] := by
    intro id
    rw [mem_roots, (wired_lasso last).1, List.mem_singleton]
    simp only [lasso_dependsOn, lassoNext, not_and]
    constructor
    · rintro ⟨held, free⟩
      -- Nothing but the target before it leads to any other one, and 0 leads to itself.
      have before := free (id - 1)
      have self := free 0
      grind
    · rintro rfl
      refine ⟨Nat.succ_lt_succ positive, fun owner held => ?_⟩
      split <;> omega
  exact List.perm_singleton.mp ((List.perm_ext_iff_of_nodup (List.nodup_range.filter _)
    (List.pairwise_singleton _ 1)).mpr free)

/-- The walk down a path of all targets meets the only cycle at its end, below all of them. -/
theorem lasso_treeWalk (last : Nat) (positive : 0 < last) :
    ∃ front id, (lasso last).treeWalk = front ++ [⟨id, last + 1, .cycle⟩] ∧
      ∀ visit ∈ front, visit.mark = .expanded := by
  have roots := lasso_roots positive
  obtain ⟨count, rfl⟩ := Nat.exists_eq_add_of_lt positive
  rw [Nat.zero_add] at roots ⊢
  have path := lasso_path count 1 Nat.one_pos (Nat.add_comm 1 count)
  have new : (lasso (count + 1)).ids.Perm (1 :: (List.range' 2 count ++ [0])) := by
    rw [ids, (wired_lasso _).1, List.range_eq_range']
    exact (List.perm_append_singleton 0 (1 :: List.range' 2 count)).symm
  have apart : (1 :: (List.range' 2 count ++ [0]) ++ []).Nodup := by
    rw [List.append_nil]
    exact new.nodup_iff.mp List.nodup_range
  obtain ⟨⟨front, id, visits, expanded⟩, none⟩ := path.walk new apart
  refine ⟨front, id, ?_, expanded⟩
  simp only [treeWalk, roots, none, visits, Tree.leftovers_nil, List.append_nil]
  simp

end Store

end BuildGraph
