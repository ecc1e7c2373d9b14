import BuildGraph.Proofs.Store.Graph
import BuildGraph.Proofs.View.Preorder

/-! What a walk writes.

A walk is told by the targets around it and by those that were not met before it. What stands
before it in the row of visits agrees with both, and goes on to agree visit by visit, so that each
mark can be judged by the row alone.
-/

set_option autoImplicit false

namespace BuildGraph.Tree

variable {store : Store} {path fresh ids left : List TargetId} {id : TargetId}
variable {before visits after : List Visit}

/-- One walk: the targets it is asked for, what it writes and what is left fresh after it. -/
inductive Walks (store : Store) : List TargetId → List TargetId → List TargetId → List Visit →
    List TargetId → Prop where
  | nil {path fresh : List TargetId} : Walks store path fresh [] [] fresh
  | cycle {path fresh rest left : List TargetId} {id : TargetId} {visits : List Visit}
      (held : id < store.size) (around : id ∈ path)
      (next : Walks store path fresh rest visits left) :
      Walks store path fresh (id :: rest) (⟨id, path.length, .cycle⟩ :: visits) left
  | again {path fresh rest left : List TargetId} {id : TargetId} {visits : List Visit}
      (held : id < store.size) (outside : id ∉ path) (met : id ∉ fresh)
      (next : Walks store path fresh rest visits left) :
      Walks store path fresh (id :: rest)
        (⟨id, path.length, if store.edges id = [] then .repeatedLeaf else .shownAbove⟩ :: visits)
        left
  | expand {path fresh middle rest left : List TargetId} {id : TargetId}
      {inner visits : List Visit} (held : id < store.size) (outside : id ∉ path)
      (unmet : id ∈ fresh)
      (below : Walks store (id :: path) (fresh.erase id) (store.edges id) inner middle)
      (next : Walks store path middle rest visits left) :
      Walks store path fresh (id :: rest)
        (⟨id, path.length, .expanded⟩ :: (inner ++ visits)) left

def Closed (store : Store) : Prop :=
  ∀ owner dependency, store.DependsOn owner dependency → dependency < store.size

theorem walk_walks (closed : Closed store) (held : ∀ id ∈ ids, id < store.size) :
    Walks store path fresh ids (walk store path fresh ids).visits
      (walk store path fresh ids).fresh := by
  fun_induction walk store path fresh ids with
  | case1 path fresh => exact .nil
  | case2 path fresh id rest unknown ih =>
    exact absurd (held id List.mem_cons_self) (Nat.not_lt.mpr unknown)
  | case3 path fresh id rest known around ih =>
    obtain ⟨first, others⟩ := List.forall_mem_cons.mp held
    exact .cycle first around (ih others)
  | case4 path fresh id rest known outside unmet fewer below beside ihBelow ihBeside =>
    obtain ⟨first, others⟩ := List.forall_mem_cons.mp held
    exact .expand first outside unmet (ihBelow (closed id)) (ihBeside others)
  | case5 path fresh id rest known outside met ih =>
    obtain ⟨first, others⟩ := List.forall_mem_cons.mp held
    exact .again first outside met (ih others)

/-! ## Depths -/

theorem Walks.deep (walks : Walks store path fresh ids visits left) :
    ∀ visit ∈ visits, path.length ≤ visit.depth := by
  induction walks with
  | nil => exact nofun
  | cycle _ _ _ ih => exact List.forall_mem_cons.mpr ⟨Nat.le_refl _, ih⟩
  | again _ _ _ _ ih => exact List.forall_mem_cons.mpr ⟨Nat.le_refl _, ih⟩
  | expand _ _ _ _ _ ihBelow ih =>
    refine List.forall_mem_cons.mpr ⟨Nat.le_refl _, List.forall_mem_append.mpr ⟨?_, ih⟩⟩
    exact fun visit member => Nat.le_of_succ_le (ihBelow visit member)

theorem Walks.closes (walks : Walks store path fresh ids visits left)
    (closes : Closes path.length after) : Closes path.length (visits ++ after) := by
  cases walks with
  | nil => exact closes
  | cycle | again | expand =>
    rintro visit ⟨⟩
    exact Nat.le_refl _

/-- One visit for each target asked for; all others are deeper. -/
theorem Walks.level (walks : Walks store path fresh ids visits left) :
    (atDepth path.length visits).map Visit.id = ids := by
  induction walks with
  | nil => rfl
  | cycle _ _ _ ih => simpa [atDepth] using ih
  | again _ _ _ _ ih => simpa [atDepth] using ih
  | @expand path _ _ _ _ _ inner _ _ _ _ below _ _ ih =>
    -- What is below the expansion is deeper than all that was asked for.
    have none : atDepth path.length inner = [] := by
      refine List.filter_eq_nil_iff.mpr fun visit member => ?_
      have deeper : path.length + 1 ≤ visit.depth := below.deep visit member
      simpa using Nat.ne_of_gt deeper
    rw [atDepth] at none ih ⊢
    simp [none, ih]

def expansions (visits : List Visit) : List Visit :=
  visits.filter (·.mark = .expanded)

def entries (store : Store) (visits : List Visit) : List TargetId :=
  (expansions visits).flatMap fun visit => store.edges visit.id

theorem entries_append (store : Store) (visits more : List Visit) :
    entries store (visits ++ more) = entries store visits ++ entries store more := by
  simp [entries, expansions]

theorem entries_cons {visit : Visit} (expanded : visit.mark = .expanded) :
    entries store (visit :: visits) = store.edges visit.id ++ entries store visits := by
  simp [entries, expansions, expanded]

theorem entries_cons_of_ne {visit : Visit} (other : visit.mark ≠ .expanded) :
    entries store (visit :: visits) = entries store visits := by
  simp [entries, expansions, other]

theorem Walks.length (walks : Walks store path fresh ids visits left) :
    visits.length = ids.length + (entries store visits).length := by
  induction walks with
  | nil => rfl
  | cycle _ _ _ ih =>
    rw [entries_cons_of_ne, List.length_cons, List.length_cons, ih]
    · omega
    · nofun
  | again _ _ _ _ ih =>
    rw [entries_cons_of_ne, List.length_cons, List.length_cons, ih]
    · omega
    · split <;> nofun
  | @expand path fresh _ rest _ id inner visits _ _ _ _ _ ihBelow ih =>
    have opened : entries store (⟨id, path.length, .expanded⟩ :: (inner ++ visits)) =
        store.edges id ++ (entries store inner ++ entries store visits) := by
      rw [entries_cons rfl, entries_append]
    simp only [opened, List.length_cons, List.length_append, ihBelow, ih]
    omega

/-! ## The row before a walk -/

def ExpandedIn (visits : List Visit) (id : TargetId) : Prop :=
  ∃ visit ∈ visits, visit.id = id ∧ visit.mark = .expanded

theorem ExpandedIn.mono {more : List Visit} (expanded : ExpandedIn visits id)
    (within : visits ⊆ more) : ExpandedIn more id :=
  let ⟨visit, member, found⟩ := expanded
  ⟨visit, within member, found⟩

/-- What is written before a walk at `path`: its targets are the expansions around the next visit,
and the targets without a visit are those still fresh. -/
structure Context (store : Store) (before : List Visit) (path fresh : List TargetId) : Prop where
  around : (enclosing before path.length).map Visit.id = path
  opened : ∀ above ∈ enclosing before path.length, above.mark = .expanded
  unmet : ∀ earlier ∈ before, earlier.id ∉ fresh
  met : ∀ id < store.size, id ∉ fresh → ExpandedIn before id
  nodup : fresh.Nodup

namespace Context

variable {visit : Visit}

theorem start : Context store [] [] store.ids where
  around := rfl
  opened := nofun
  unmet := nofun
  met := fun _ held old => absurd (List.mem_range.mpr held) old
  nodup := List.nodup_range

theorem fresh_iff (context : Context store before path fresh) (held : id < store.size) :
    id ∈ fresh ↔ ∀ earlier ∈ before, earlier.id ≠ id := by
  constructor
  · rintro new earlier member rfl
    exact context.unmet earlier member new
  · intro first
    by_cases new : id ∈ fresh
    · exact new
    · obtain ⟨earlier, member, same, -⟩ := context.met id held new
      exact absurd same (first earlier member)

theorem not_fresh_iff (context : Context store before path fresh) (held : id < store.size) :
    id ∉ fresh ↔ ExpandedIn before id := by
  constructor
  · exact context.met id held
  · rintro ⟨earlier, member, rfl, -⟩
    exact context.unmet earlier member

theorem not_fresh_of_mem_path (context : Context store before path fresh) (member : id ∈ path) :
    id ∉ fresh := by
  rw [← context.around] at member
  obtain ⟨above, around, rfl⟩ := List.mem_map.mp member
  exact context.unmet above (mem_of_mem_enclosing around)

theorem again (context : Context store before path fresh) (deep : path.length ≤ visit.depth)
    (old : visit.id ∉ fresh) : Context store (before ++ [visit]) path fresh := by
  have same : enclosing (before ++ [visit]) path.length = enclosing before path.length :=
    enclosing_append (by simpa using deep)
  constructor
  · rw [same, context.around]
  · rw [same]
    exact context.opened
  · exact List.forall_mem_append.mpr ⟨context.unmet, by simpa using old⟩
  · exact fun id held old => (context.met id held old).mono (List.subset_append_left _ _)
  · exact context.nodup

/-- An expansion stands around all that is written below it. -/
theorem expand (context : Context store before path fresh) (new : id ∈ fresh) :
    Context store (before ++ [⟨id, path.length, .expanded⟩]) (id :: path) (fresh.erase id) := by
  have nearer : enclosing (before ++ [⟨id, path.length, .expanded⟩]) (id :: path).length =
      ⟨id, path.length, .expanded⟩ :: enclosing before path.length := enclosing_concat_succ
  have erased : ∀ other, other ∈ fresh.erase id ↔ other ≠ id ∧ other ∈ fresh :=
    fun other => context.nodup.mem_erase_iff
  constructor
  · rw [nearer, List.map_cons, context.around]
  · rw [nearer]
    exact List.forall_mem_cons.mpr ⟨rfl, context.opened⟩
  · refine List.forall_mem_append.mpr ⟨fun earlier member kept => ?_, ?_⟩
    · exact context.unmet earlier member ((erased _).mp kept).2
    · simp [erased]
  · intro other held gone
    by_cases same : other = id
    · subst same
      exact ⟨_, List.mem_concat_self, rfl, rfl⟩
    · have old : other ∉ fresh := fun member => gone ((erased other).mpr ⟨same, member⟩)
      exact (context.met other held old).mono (List.subset_append_left _ _)
  · exact context.nodup.erase id

/-- Back at the outer path, what was written below an expansion is met, but not around. -/
theorem leave {inner : List Visit} {middle : List TargetId}
    (context : Context store before path fresh)
    (below : Walks store (id :: path) (fresh.erase id) (store.edges id) inner middle)
    (inside :
      Context store (before ++ [⟨id, path.length, .expanded⟩] ++ inner) (id :: path) middle) :
    Context store (before ++ ⟨id, path.length, .expanded⟩ :: inner) path middle := by
  have deep : ∀ visit ∈ ⟨id, path.length, .expanded⟩ :: inner, path.length ≤ visit.depth :=
    List.forall_mem_cons.mpr
      ⟨Nat.le_refl _, fun visit member => Nat.le_of_succ_le (below.deep visit member)⟩
  rw [List.append_assoc] at inside
  refine ⟨?_, ?_, inside.unmet, inside.met, inside.nodup⟩
  · rw [enclosing_append deep, context.around]
  · rw [enclosing_append deep]
    exact context.opened

theorem walk (context : Context store before path fresh)
    (walks : Walks store path fresh ids visits left) :
    Context store (before ++ visits) path left := by
  induction walks generalizing before with
  | nil => simpa using context
  | cycle held around next ih =>
    have old := context.not_fresh_of_mem_path around
    simpa using ih (context.again (Nat.le_refl _) old)
  | again held outside met next ih =>
    simpa using ih (context.again (Nat.le_refl _) met)
  | expand held outside unmet below next ihBelow ih =>
    have inside := ihBelow (context.expand unmet)
    simpa using ih (context.leave below inside)

end Context

/-! ## Every visit of a walk -/

structure Fits (store : Store) (before : List Visit) (visit : Visit) (after : List Visit) :
    Prop where
  held : visit.id < store.size
  depth : (enclosing before visit.depth).length = visit.depth
  opened : ∀ above ∈ enclosing before visit.depth, above.mark = .expanded
  expanded : visit.mark = .expanded ↔ ∀ earlier ∈ before, earlier.id ≠ visit.id
  cycle : visit.mark = .cycle ↔ visit.id ∈ (enclosing before visit.depth).map Visit.id
  shownAbove : visit.mark = .shownAbove ↔
    visit.id ∉ (enclosing before visit.depth).map Visit.id ∧ ExpandedIn before visit.id ∧
      store.edges visit.id ≠ []
  entries : visit.mark = .expanded →
    (atDepth (visit.depth + 1) (nested visit.depth after)).map Visit.id = store.edges visit.id
  bare : visit.mark ≠ .expanded → nested visit.depth after = []

namespace Context

variable {mark : Mark}

/-- The questions of a visit about the row, answered by `path` and `fresh`. -/
theorem fits (context : Context store before path fresh) (held : id < store.size)
    (expanded : mark = .expanded ↔ id ∈ fresh) (cycle : mark = .cycle ↔ id ∈ path)
    (shownAbove : mark = .shownAbove ↔ id ∉ path ∧ id ∉ fresh ∧ store.edges id ≠ [])
    (entries : mark = .expanded →
      (atDepth (path.length + 1) (nested path.length after)).map Visit.id = store.edges id)
    (bare : mark ≠ .expanded → nested path.length after = []) :
    Fits store before ⟨id, path.length, mark⟩ after where
  held := held
  depth := by simpa using congrArg List.length context.around
  opened := context.opened
  expanded := expanded.trans (context.fresh_iff held)
  cycle := by rwa [context.around]
  shownAbove := by rwa [context.around, ← context.not_fresh_iff held]
  entries := entries
  bare := bare

theorem fits_cycle (context : Context store before path fresh) (held : id < store.size)
    (around : id ∈ path) (closes : Closes path.length after) :
    Fits store before ⟨id, path.length, .cycle⟩ after := by
  have old := context.not_fresh_of_mem_path around
  exact context.fits held (by simp [old]) (by simp [around]) (by simp [around]) nofun
    fun _ => closes.nested

theorem fits_again (context : Context store before path fresh) (held : id < store.size)
    (outside : id ∉ path) (met : id ∉ fresh) (closes : Closes path.length after) :
    Fits store before
      ⟨id, path.length, if store.edges id = [] then .repeatedLeaf else .shownAbove⟩ after := by
  by_cases leaf : store.edges id = []
  · rw [if_pos leaf]
    exact context.fits held (by simp [met]) (by simp [outside]) (by simp [leaf]) nofun
      fun _ => closes.nested
  · rw [if_neg leaf]
    exact context.fits held (by simp [met]) (by simp [outside]) (by simp [outside, met, leaf])
      nofun fun _ => closes.nested

theorem fits_expand {inner : List Visit} {middle : List TargetId}
    (context : Context store before path fresh)
    (held : id < store.size) (outside : id ∉ path) (unmet : id ∈ fresh)
    (below : Walks store (id :: path) (fresh.erase id) (store.edges id) inner middle)
    (closes : Closes path.length after) :
    Fits store before ⟨id, path.length, .expanded⟩ (inner ++ after) := by
  have all : nested path.length (inner ++ after) = inner := nested_append below.deep closes
  exact context.fits held (by simp [unmet]) (by simp [outside]) (by simp [unmet])
    (fun _ => by rw [all]; exact below.level) (fun other => absurd rfl other)

theorem throughout (context : Context store before path fresh)
    (walks : Walks store path fresh ids visits left) (closes : Closes path.length after) :
    Throughout (Fits store) before visits after := by
  induction walks generalizing before after with
  | nil => exact .nil
  | cycle held around next ih =>
    have old := context.not_fresh_of_mem_path around
    exact .cons (context.fits_cycle held around (next.closes closes))
      (ih (context.again (Nat.le_refl _) old) closes)
  | again held outside met next ih =>
    exact .cons (context.fits_again held outside met (next.closes closes))
      (ih (context.again (Nat.le_refl _) met) closes)
  | @expand path fresh middle rest left id inner visits held outside unmet below next ihBelow ih =>
    -- What is written beside the expansion comes after all that is below it, and is not deeper.
    have ends := next.closes closes
    have inside := context.expand unmet
    have above : Closes (path.length + 1) (visits ++ after) :=
      fun visit first => Nat.le_succ_of_le (ends visit first)
    have back := context.leave below (inside.walk below)
    refine .cons ?_ (.append (ihBelow inside above) (ih ?_ closes))
    · rw [List.append_assoc]
      exact context.fits_expand held outside unmet below ends
    · simpa using back

end Context

end BuildGraph.Tree
