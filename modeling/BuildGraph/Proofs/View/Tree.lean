import BuildGraph.Proofs.Store.Built
import BuildGraph.Proofs.View.Walk

/-! The walk of the tree view shows the whole graph.

The first walk starts at the targets nothing depends on. What it leaves can only be reached
through a cycle; each such target, when its turn comes, starts a walk of its own if nothing has
expanded it by then. So every target is expanded once, and every entry of every list is written
below the expansion of its owner.
-/

set_option autoImplicit false

namespace BuildGraph

namespace Tree

variable {store : Store} {fresh ids left : List TargetId} {id : TargetId}
variable {before visits after : List Visit}

/-! ## Targets that are left -/

inductive Leftovers (store : Store) : List TargetId → List TargetId → List Visit → Prop where
  | nil {fresh : List TargetId} : Leftovers store fresh [] []
  | start {fresh left rest : List TargetId} {id : TargetId} {visits others : List Visit}
      (unmet : id ∈ fresh) (walks : Walks store [] fresh [id] visits left)
      (next : Leftovers store left rest others) :
      Leftovers store fresh (id :: rest) (visits ++ others)
  | skip {fresh rest : List TargetId} {id : TargetId} {others : List Visit} (met : id ∉ fresh)
      (next : Leftovers store fresh rest others) : Leftovers store fresh (id :: rest) others

theorem leftovers_walks (closed : Closed store) (held : ∀ id ∈ ids, id < store.size) :
    Leftovers store fresh ids (leftovers store fresh ids) := by
  fun_induction leftovers store fresh ids with
  | case1 fresh => exact .nil
  | case2 fresh id rest unmet walked ih =>
    obtain ⟨first, others⟩ := List.forall_mem_cons.mp held
    exact .start unmet (walk_walks closed (List.forall_mem_singleton.mpr first)) (ih others)
  | case3 fresh id rest met ih => exact .skip met (ih (List.forall_mem_cons.mp held).2)

/-- A walk from one target that is not expanded begins with its expansion. -/
theorem Walks.single (walks : Walks store [] fresh [id] visits left) (unmet : id ∈ fresh) :
    ∃ inner, visits = ⟨id, 0, .expanded⟩ :: inner ∧ ∀ visit ∈ inner, 0 < visit.depth := by
  cases walks with
  | cycle _ around => cases around
  | again _ _ met => exact absurd unmet met
  | @expand _ _ _ _ _ _ inner _ _ _ _ below next =>
    cases next
    exact ⟨inner, by rw [List.append_nil]; rfl, below.deep⟩

theorem Walks.tops (walks : Walks store [] fresh ids visits left) :
    (atDepth 0 visits).map Visit.id = ids :=
  walks.level

namespace Leftovers

theorem closes (leftovers : Leftovers store fresh ids visits) : Closes 0 visits := by
  induction leftovers with
  | nil => exact nofun
  | start _ walks _ ih => exact walks.closes ih
  | skip _ _ ih => exact ih

theorem throughout (leftovers : Leftovers store fresh ids visits)
    (context : Context store before [] fresh) : Throughout (Fits store) before visits [] := by
  induction leftovers generalizing before with
  | nil => exact .nil
  | start _ walks next ih =>
    exact .append (context.throughout walks (by simpa using next.closes)) (ih (context.walk walks))
  | skip _ _ ih => exact ih context

theorem starts (leftovers : Leftovers store fresh ids visits) :
    ((atDepth 0 visits).map Visit.id).Sublist ids := by
  induction leftovers with
  | nil => exact .slnil
  | start _ walks _ ih =>
    rw [atDepth_append, List.map_append, walks.tops]
    exact ih.cons_cons _
  | skip _ _ ih => exact ih.cons _

theorem length (leftovers : Leftovers store fresh ids visits) :
    visits.length = (atDepth 0 visits).length + (entries store visits).length := by
  induction leftovers with
  | nil => rfl
  | @start _ _ _ id visits _ _ walks _ ih =>
    have one : (atDepth 0 visits).length = 1 := by simpa using congrArg List.length walks.tops
    rw [List.length_append, atDepth_append, List.length_append, entries_append, List.length_append,
      one, walks.length, List.length_singleton, ih]
    omega
  | skip _ _ ih => exact ih

theorem expanded (leftovers : Leftovers store fresh ids visits)
    (context : Context store before [] fresh) (held : ∀ id ∈ ids, id < store.size) :
    ∀ id ∈ ids, ExpandedIn (before ++ visits) id := by
  induction leftovers generalizing before with
  | nil => exact nofun
  | @start _ _ _ id _ _ unmet walks _ ih =>
    obtain ⟨first, others⟩ := List.forall_mem_cons.mp held
    rw [← List.append_assoc]
    refine List.forall_mem_cons.mpr ⟨?_, ih (context.walk walks) others⟩
    obtain ⟨inner, rfl, -⟩ := walks.single unmet
    exact ⟨⟨id, 0, .expanded⟩, by simp, rfl, rfl⟩
  | skip met _ ih =>
    obtain ⟨first, others⟩ := List.forall_mem_cons.mp held
    refine List.forall_mem_cons.mpr ⟨?_, ih context others⟩
    exact (context.met _ first met).mono (List.subset_append_left _ _)

end Leftovers

/-- Where the turn of a target comes: what starts a walk before it has a smaller number, and it
starts one itself exactly when it is not expanded by then. -/
def Turn (before visits : List Visit) (id : TargetId) : Prop :=
  ∃ front back, visits = front ++ back ∧ Closes 0 back ∧
    (∀ visit ∈ atDepth 0 front, visit.id < id) ∧ (∀ visit ∈ atDepth 0 back, id ≤ visit.id) ∧
    ((∃ visit ∈ atDepth 0 back, visit.id = id) ↔ ¬ ExpandedIn (before ++ front) id)

theorem Leftovers.turn (leftovers : Leftovers store fresh ids visits)
    (context : Context store before [] fresh) (held : ∀ id ∈ ids, id < store.size)
    (sorted : ids.Pairwise (· < ·)) : ∀ id ∈ ids, Turn before visits id := by
  induction leftovers generalizing before with
  | nil => exact nofun
  | @start fresh left rest id visits others unmet walks next ih =>
    obtain ⟨first, restHeld⟩ := List.forall_mem_cons.mp held
    obtain ⟨below, restSorted⟩ := List.pairwise_cons.mp sorted
    have whole := Leftovers.start unmet walks next
    refine List.forall_mem_cons.mpr ⟨?_, fun other member => ?_⟩
    · -- Its own turn comes at once; nothing smaller is left to start a walk.
      refine ⟨[], visits ++ others, rfl, whole.closes, nofun, fun visit member => ?_, ?_⟩
      · have asked := whole.starts.subset (List.mem_map_of_mem member)
        obtain same | later := List.mem_cons.mp asked
        · exact Nat.le_of_eq same.symm
        · exact Nat.le_of_lt (below _ later)
      · obtain ⟨inner, rfl, -⟩ := walks.single unmet
        rw [List.append_nil, ← context.not_fresh_iff first, Classical.not_not]
        exact iff_of_true ⟨_, List.mem_cons_self, rfl⟩ unmet
    · -- The turn of a later target comes after this walk, whose only start is smaller.
      obtain ⟨front, back, rfl, closes, earlier, later, starts⟩ :=
        ih (context.walk walks) restHeld restSorted other member
      refine ⟨visits ++ front, back, by simp, closes, ?_, later, by simpa using starts⟩
      rw [atDepth_append]
      refine List.forall_mem_append.mpr ⟨fun visit found => ?_, earlier⟩
      have same : visit.id = id := by
        simpa [walks.tops] using List.mem_map_of_mem (f := Visit.id) found
      rw [same]
      exact below other member
  | @skip _ _ id others met next ih =>
    obtain ⟨first, restHeld⟩ := List.forall_mem_cons.mp held
    obtain ⟨below, restSorted⟩ := List.pairwise_cons.mp sorted
    refine List.forall_mem_cons.mpr ⟨?_, ih context restHeld restSorted⟩
    have greater : ∀ visit ∈ atDepth 0 others, id < visit.id :=
      fun visit found => below _ (next.starts.subset (List.mem_map_of_mem found))
    refine ⟨[], others, rfl, next.closes, nofun,
      fun visit found => Nat.le_of_lt (greater visit found), ?_⟩
    rw [List.append_nil, ← context.not_fresh_iff first, Classical.not_not]
    exact iff_of_false (fun ⟨visit, found, same⟩ => Nat.ne_of_gt (greater visit found) same) met

/-! ## The whole view -/

structure Shows (store : Store) (visits : List Visit) : Prop where
  fits : ∀ before visit after, visits = before ++ visit :: after → Fits store before visit after
  once : ((expansions visits).map Visit.id).Perm store.ids
  starts : ∃ roots rooted others, visits = rooted ++ others ∧
    (atDepth 0 rooted).map Visit.id = roots ∧ roots.Pairwise (· < ·) ∧
    (∀ id, id ∈ roots ↔ id < store.size ∧ ∀ owner, ¬ store.DependsOn owner id) ∧
    ((atDepth 0 others).map Visit.id).Pairwise (· < ·) ∧
    ∀ id < store.size, Turn rooted others id
  length : visits.length =
    (atDepth 0 visits).length + (store.targets.flatMap Target.dependencies).length

theorem nodup_expansions (all : Throughout (Fits store) before visits after) :
    ((expansions visits).map Visit.id).Nodup := by
  have once : visits.Pairwise fun earlier visit => visit.mark = .expanded → earlier.id ≠ visit.id :=
    all.pairwise fun _ _ _ fits earlier member expanded => fits.expanded.mp expanded earlier member
  refine List.pairwise_map.mpr ((once.filter _).imp_of_mem fun _ member different => ?_)
  exact different (by simpa using (List.mem_filter.mp member).2)

theorem perm_expansions (all : Throughout (Fits store) [] visits [])
    (expanded : ∀ id ∈ store.ids, ExpandedIn visits id) :
    ((expansions visits).map Visit.id).Perm store.ids := by
  refine (List.perm_ext_iff_of_nodup (nodup_expansions all) List.nodup_range).mpr fun id => ?_
  constructor
  · intro member
    obtain ⟨visit, found, rfl⟩ := List.mem_map.mp member
    obtain ⟨front, back, split⟩ := List.append_of_mem (List.mem_filter.mp found).1
    exact List.mem_range.mpr (all front visit back split).held
  · intro held
    obtain ⟨visit, member, same, mark⟩ := expanded id held
    exact List.mem_map.mpr ⟨visit, List.mem_filter.mpr ⟨member, decide_eq_true mark⟩, same⟩

theorem perm_entries (once : ((expansions visits).map Visit.id).Perm store.ids) :
    (entries store visits).Perm (store.targets.flatMap Target.dependencies) := by
  have listed := once.flatMap_right store.edges
  rw [List.flatMap_map] at listed
  have all : store.ids.flatMap store.edges = store.targets.flatMap Target.dependencies := by
    rw [List.flatMap_def, store.map_edges_ids, List.flatMap_def]
  exact all ▸ listed

theorem shows_append {roots : List TargetId} {others : List Visit}
    (sorted : roots.Pairwise (· < ·))
    (free : ∀ id, id ∈ roots ↔ id < store.size ∧ ∀ owner, ¬ store.DependsOn owner id)
    (walks : Walks store [] store.ids roots visits left)
    (leftovers : Leftovers store left store.ids others) : Shows store (visits ++ others) := by
  have held : ∀ id ∈ store.ids, id < store.size := fun id => List.mem_range.mp
  have context : Context store visits [] left := Context.start.walk walks
  have fits : Throughout (Fits store) [] (visits ++ others) [] :=
    .append (Context.start.throughout walks (by simpa using leftovers.closes))
      (leftovers.throughout context)
  have once := perm_expansions fits (leftovers.expanded context held)
  have ascending : store.ids.Pairwise (· < ·) := List.pairwise_lt_range
  constructor
  · intro before visit after split
    simpa using fits before visit after split
  · exact once
  · exact ⟨roots, visits, others, rfl, walks.tops, sorted, free, ascending.sublist leftovers.starts,
      fun id known => leftovers.turn context held ascending id (List.mem_range.mpr known)⟩
  · have tops : (atDepth 0 visits).length = roots.length := by
      simpa using congrArg List.length walks.tops
    rw [← (perm_entries once).length_eq, atDepth_append, entries_append, List.length_append,
      List.length_append, List.length_append, walks.length, leftovers.length, tops]
    omega

end Tree

namespace Store

variable {store : Store} {id : TargetId}

theorem mem_roots :
    id ∈ store.roots ↔ id < store.size ∧ ∀ owner, ¬ store.DependsOn owner id := by
  have listed : (∃ target ∈ store.targets, id ∈ target.dependencies) ↔
      ∃ owner, store.DependsOn owner id := by
    simp only [dependsOn_iff, List.mem_iff_getElem?]
    exact ⟨fun ⟨target, ⟨owner, found⟩, edge⟩ => ⟨owner, target, found, edge⟩,
      fun ⟨owner, target, found, edge⟩ => ⟨target, ⟨owner, found⟩, edge⟩⟩
  rw [← not_exists, ← listed]
  simp [roots, ids]

theorem Built.shows_treeWalk (built : store.Built) : Tree.Shows store store.treeWalk := by
  have closed : Tree.Closed store := fun _ _ edge => built.coherent.closed edge
  have sorted : store.roots.Pairwise (· < ·) := List.pairwise_lt_range.filter _
  exact Tree.shows_append sorted (fun _ => mem_roots)
    (Tree.walk_walks closed fun id root => (mem_roots.mp root).1)
    (Tree.leftovers_walks closed fun id => List.mem_range.mp)

end Store

end BuildGraph
