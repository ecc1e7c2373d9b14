import BuildGraph.Cycle
import BuildGraph.Proofs.View.Walk
import Mathlib.Data.List.Chain

/-! Walks along the dependency lists find a cycle exactly when there is one.

A walk that comes back to its own path has closed a cycle. A walk that never does so leaves behind
only targets that no edge leaves again and no cycle meets. The search for a cycle is such a walk as
long as it finds none.
-/

set_option autoImplicit false

namespace BuildGraph

namespace Store

variable {store : Store} {path ids rest fresh : List TargetId} {id : TargetId}

def Cyclic (store : Store) : Prop :=
  ∃ id, store.LeadsTo id id

/-! ## Paths -/

/-- A path that repeats no target, the nearest first, and what comes next below it. -/
structure Descends (store : Store) (path ids : List TargetId) : Prop where
  trail : path.IsChain fun nearer farther => store.DependsOn farther nearer
  nodup : path.Nodup
  listed : ∀ last ∈ path.head?, ∀ id ∈ ids, store.DependsOn last id

namespace Descends

theorem start (ids : List TargetId) : store.Descends [] ids :=
  ⟨.nil, .nil, nofun⟩

theorem next (descends : store.Descends path (id :: rest)) : store.Descends path rest :=
  ⟨descends.trail, descends.nodup,
    fun last nearest id member => descends.listed last nearest id (List.mem_cons_of_mem _ member)⟩

theorem enter (descends : store.Descends path (id :: rest)) (outside : id ∉ path) :
    store.Descends (id :: path) (store.edges id) where
  trail := List.isChain_cons.mpr
    ⟨fun last nearest => descends.listed last nearest id List.mem_cons_self, descends.trail⟩
  nodup := List.nodup_cons.mpr ⟨outside, descends.nodup⟩
  listed := by
    rintro last ⟨⟩ dependency edge
    exact edge

theorem leadsTo {last : TargetId} {earlier : List TargetId}
    (descends : store.Descends (last :: earlier) ids) (member : id ∈ earlier) :
    store.LeadsTo id last := by
  obtain ⟨trail, -, -⟩ := descends
  induction earlier generalizing last with
  | nil => cases member
  | cons before earlier ih =>
    obtain ⟨edge, trail⟩ := List.isChain_cons_cons.mp trail
    obtain rfl | member := List.mem_cons.mp member
    · exact .single edge
    · exact .tail (ih member trail) edge

/-- To come back to the path closes a cycle. -/
theorem cyclic (descends : store.Descends path (id :: rest)) (around : id ∈ path) :
    store.Cyclic := by
  cases path with
  | nil => cases around
  | cons last earlier =>
    have edge : store.DependsOn last id := descends.listed last rfl id List.mem_cons_self
    obtain rfl | member := List.mem_cons.mp around
    · exact ⟨id, .single edge⟩
    · exact ⟨id, .tail (descends.leadsTo member) edge⟩

end Descends

/-! ## Targets that are left behind -/

/-- No edge leaves these targets and no cycle meets them. -/
structure Settled (store : Store) (done : TargetId → Prop) : Prop where
  closed : ∀ {owner dependency}, done owner → store.DependsOn owner dependency → done dependency
  acyclic : ∀ {id}, done id → ¬ store.LeadsTo id id

namespace Settled

variable {done : TargetId → Prop}

theorem leadsTo {first last : TargetId} (settled : store.Settled done) (inside : done first)
    (path : store.LeadsTo first last) : done last := by
  induction path with
  | single edge => exact settled.closed inside edge
  | tail _ edge ih => exact settled.closed ih edge

theorem insert (settled : store.Settled done) (new : ¬ done id)
    (below : ∀ dependency ∈ store.edges id, done dependency) :
    store.Settled fun other => other = id ∨ done other where
  closed := by
    rintro owner dependency (rfl | old) edge
    · exact .inr (below dependency edge)
    · exact .inr (settled.closed old edge)
  acyclic := by
    rintro other (rfl | old) cycle
    · -- A cycle through the new target would come back to it from what was there before.
      obtain ⟨dependency, edge, back⟩ := Relation.TransGen.head'_iff.mp cycle
      have inside := below dependency edge
      obtain rfl | path := Relation.reflTransGen_iff_eq_or_transGen.mp back
      · exact new inside
      · exact new (settled.leadsTo inside path)
    · exact settled.acyclic old cycle

theorem not_cyclic (settled : store.Settled done) (all : ∀ id < store.size, done id) :
    ¬ store.Cyclic := by
  rintro ⟨id, cycle⟩
  obtain ⟨dependency, edge, -⟩ := Relation.TransGen.head'_iff.mp cycle
  exact settled.acyclic (all id (lt_of_dependsOn edge)) cycle

end Settled

end Store

namespace Tree

variable {store : Store} {path fresh ids left : List TargetId} {id : TargetId}
variable {visits : List Visit}

/-! ## Walks -/

theorem Walks.cyclic (walks : Walks store path fresh ids visits left)
    (descends : store.Descends path ids) (marked : ∃ visit ∈ visits, visit.mark = .cycle) :
    store.Cyclic := by
  obtain ⟨visit, member, mark⟩ := marked
  induction walks with
  | nil => cases member
  | cycle held around next ih => exact descends.cyclic around
  | again held outside met next ih =>
    obtain rfl | member := List.mem_cons.mp member
    · split at mark <;> cases mark
    · exact ih descends.next member
  | expand held outside unmet below next ihBelow ih =>
    obtain rfl | member := List.mem_cons.mp member
    · cases mark
    · obtain member | member := List.mem_append.mp member
      · exact ihBelow (descends.enter outside) member
      · exact ih descends.next member

/-- Met before, and not open any more. -/
def Behind (store : Store) (path fresh : List TargetId) (id : TargetId) : Prop :=
  id < store.size ∧ id ∉ path ∧ id ∉ fresh

theorem Walks.sublist (walks : Walks store path fresh ids visits left) : left.Sublist fresh := by
  induction walks with
  | nil => exact List.Sublist.refl _
  | cycle _ _ _ ih => exact ih
  | again _ _ _ _ ih => exact ih
  | expand _ _ _ _ _ ihBelow ih => exact ih.trans (ihBelow.trans List.erase_sublist)

theorem Walks.behind (walks : Walks store path fresh ids visits left)
    (behind : Behind store path fresh id) : Behind store path left id :=
  ⟨behind.1, behind.2.1, fun member => behind.2.2 (walks.sublist.subset member)⟩

/-- While a target is open, the same ones are behind as before. -/
theorem behind_enter (unmet : id ∈ fresh) :
    Behind store (id :: path) (fresh.erase id) = Behind store path fresh := by
  funext other
  by_cases same : other = id
  · subst same
    simp [Behind, unmet]
  · simp [Behind, same, List.mem_erase_of_ne same]

theorem behind_leave {middle : List TargetId} (held : id < store.size) (outside : id ∉ path)
    (met : id ∉ middle) :
    Behind store path middle =
      fun other => other = id ∨ Behind store (id :: path) middle other := by
  funext other
  by_cases same : other = id
  · subst same
    simp [Behind, held, outside, met]
  · simp [Behind, same]

/-- A walk that never comes back to its path leaves behind all that it was asked for, and what is
behind stays settled. -/
theorem Walks.settled (walks : Walks store path fresh ids visits left)
    (clear : ∀ visit ∈ visits, visit.mark ≠ .cycle) (nodup : fresh.Nodup)
    (settled : store.Settled (Behind store path fresh)) :
    store.Settled (Behind store path left) ∧ ∀ id ∈ ids, Behind store path left id := by
  induction walks with
  | nil => exact ⟨settled, nofun⟩
  | cycle => exact absurd rfl (clear _ List.mem_cons_self)
  | again held outside met next ih =>
    obtain ⟨settled, all⟩ := ih (List.forall_mem_cons.mp clear).2 nodup settled
    exact ⟨settled, List.forall_mem_cons.mpr ⟨next.behind ⟨held, outside, met⟩, all⟩⟩
  | @expand path fresh middle rest left id inner visits held outside unmet below next ihBelow ih =>
    obtain ⟨clearBelow, clear⟩ := List.forall_mem_append.mp (List.forall_mem_cons.mp clear).2
    have met : id ∉ middle := fun member => nodup.not_mem_erase (below.sublist.subset member)
    have fewer : middle.Nodup := (nodup.erase id).sublist below.sublist
    -- All that the target lists is behind before the target itself is.
    obtain ⟨settledBelow, listed⟩ :=
      ihBelow clearBelow (nodup.erase id) (by rwa [behind_enter unmet])
    have unfinished : ¬ Behind store (id :: path) middle id :=
      fun behind => by simp [Behind] at behind
    have back : store.Settled (Behind store path middle) := by
      rw [behind_leave held outside met]
      exact settledBelow.insert unfinished listed
    obtain ⟨settled, all⟩ := ih clear fewer back
    exact ⟨settled, List.forall_mem_cons.mpr ⟨next.behind ⟨held, outside, met⟩, all⟩⟩

theorem settled_start (store : Store) : store.Settled (Behind store [] store.ids) := by
  have nothing : ∀ id, ¬ Behind store [] store.ids id :=
    fun id behind => behind.2.2 (List.mem_range.mpr behind.1)
  exact ⟨fun behind => absurd behind (nothing _), fun behind => absurd behind (nothing _)⟩

end Tree

/-! ## The search -/

namespace Store

variable {store : Store} {path fresh ids : List TargetId} {id : TargetId}

theorem walks_of_searchCycle (closed : Tree.Closed store) (held : ∀ id ∈ ids, id < store.size)
    {left : { left : List TargetId // left.length ≤ fresh.length }}
    (searched : store.searchCycle path fresh ids = .ok left) :
    ∃ visits, Tree.Walks store path fresh ids visits left.val ∧
      ∀ visit ∈ visits, visit.mark ≠ .cycle := by
  fun_induction searchCycle store path fresh ids with
  | case1 path fresh =>
    cases searched
    exact ⟨[], .nil, nofun⟩
  | case2 => cases searched
  | case3 => cases searched
  | case4 => cases searched
  | case5 path fresh id rest outside unmet fewer middle fewerLeft below last bounded beside
      ihBelow ih =>
    cases searched
    obtain ⟨first, others⟩ := List.forall_mem_cons.mp held
    obtain ⟨inner, walksBelow, clearBelow⟩ := ihBelow (closed id) below
    obtain ⟨visits, walks, clear⟩ := ih others beside
    refine ⟨_, .expand first outside unmet walksBelow walks, ?_⟩
    exact List.forall_mem_cons.mpr ⟨nofun, List.forall_mem_append.mpr ⟨clearBelow, clear⟩⟩
  | case6 path fresh id rest outside met ih =>
    obtain ⟨first, others⟩ := List.forall_mem_cons.mp held
    obtain ⟨visits, walks, clear⟩ := ih others searched
    refine ⟨_, .again first outside met walks, List.forall_mem_cons.mpr ⟨?_, clear⟩⟩
    split <;> nofun

theorem descends_of_searchCycle {cycle : List TargetId} (descends : store.Descends path ids)
    (searched : store.searchCycle path fresh ids = .error cycle) :
    ∃ around id rest, store.Descends around (id :: rest) ∧ id ∈ around ∧
      cycle = Cycle.fromLeast (Cycle.closing around id) := by
  fun_induction searchCycle store path fresh ids with
  | case1 => cases searched
  | case2 path fresh id rest around =>
    cases searched
    exact ⟨path, id, rest, descends, around, rfl⟩
  | case3 path fresh id rest outside unmet fewer found below ih =>
    cases searched
    exact ih (descends.enter outside) below
  | case4 path fresh id rest outside unmet fewer middle fewerLeft below found beside ihBelow ih =>
    cases searched
    exact ih descends.next beside
  | case5 => cases searched
  | case6 path fresh id rest outside met ih => exact ih descends.next searched

theorem cycle?_isSome_iff (closed : Tree.Closed store) :
    store.cycle?.isSome = true ↔ store.Cyclic := by
  rw [cycle?]
  cases searched : store.searchCycle [] store.ids store.ids with
  | error cycle =>
    obtain ⟨around, id, rest, descends, member, -⟩ :=
      descends_of_searchCycle (.start _) searched
    exact iff_of_true rfl (descends.cyclic member)
  | ok left =>
    obtain ⟨visits, walks, clear⟩ :=
      walks_of_searchCycle closed (fun id => List.mem_range.mp) searched
    obtain ⟨settled, all⟩ := walks.settled clear List.nodup_range (Tree.settled_start store)
    have acyclic := settled.not_cyclic fun id held => all id (List.mem_range.mpr held)
    exact iff_of_false Bool.false_ne_true acyclic

end Store

end BuildGraph
