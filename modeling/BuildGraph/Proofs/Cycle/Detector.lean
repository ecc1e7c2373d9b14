import BuildGraph.Proofs.Cycle.Canonical

/-! The search for a cycle with a mark for every target.

The marks tell targets not met from open ones and from finished ones; the open ones are also on a
stack. A target that is marked as open is looked up there. It is always found, and the search ends
as the one along a path does.
-/

set_option autoImplicit false

namespace BuildGraph

inductive Mark where
  | unvisited
  | visiting
  | visited
  deriving DecidableEq, Repr

/-- Why a search stops before its end: a cycle is closed, or a target that is marked as open is
not on the stack. -/
inductive Halt where
  | cycle (path : List TargetId)
  | astray (id : TargetId)
  deriving DecidableEq, Repr

/-- The marks by number, and the open targets with the nearest last. -/
structure Detector where
  marks : List Mark
  stack : List TargetId
  deriving DecidableEq, Repr

namespace Detector

variable {detector : Detector} {id other : TargetId}

/-- A number without a mark is passed over like a finished target. -/
def mark (detector : Detector) (id : TargetId) : Mark := detector.marks[id]?.getD .visited

def enter (detector : Detector) (id : TargetId) : Detector :=
  ⟨detector.marks.set id .visiting, detector.stack ++ [id]⟩

def leave (detector : Detector) (id : TargetId) : Detector :=
  ⟨detector.marks.set id .visited, detector.stack.dropLast⟩

def halt (detector : Detector) (id : TargetId) : Halt :=
  match detector.stack.idxOf? id with
  | none => .astray id
  | some place => .cycle (Cycle.fromLeast (detector.stack.drop place ++ [id]))

def unvisited (detector : Detector) : Nat := detector.marks.count .unvisited

/-! ## Marks -/

theorem lt_of_mark_ne (marked : detector.mark id ≠ .visited) : id < detector.marks.length := by
  by_contra beyond
  exact marked (by simp [mark, List.getElem?_eq_none (Nat.le_of_not_lt beyond)])

theorem mark_enter (held : id < detector.marks.length) :
    (detector.enter id).mark other = if other = id then .visiting else detector.mark other := by
  by_cases same : other = id
  · subst same
    simp [mark, enter, held]
  · simp [mark, enter, same, List.getElem?_set_ne (Ne.symm same)]

theorem mark_leave (held : id < detector.marks.length) :
    (detector.leave id).mark other = if other = id then .visited else detector.mark other := by
  by_cases same : other = id
  · subst same
    simp [mark, leave, held]
  · simp [mark, leave, same, List.getElem?_set_ne (Ne.symm same)]

theorem unvisited_enter_lt (unmet : detector.mark id = .unvisited) :
    (detector.enter id).unvisited < detector.unvisited := by
  have held : id < detector.marks.length := lt_of_mark_ne (by simp [unmet])
  have here : detector.marks[id] = .unvisited := by
    simpa [mark, held] using unmet
  have counted : 0 < detector.marks.count .unvisited :=
    List.count_pos_iff.mpr (here ▸ List.getElem_mem held)
  have left : (detector.enter id).unvisited = detector.unvisited - 1 := by
    simp [unvisited, enter, List.count_set held, here]
  rw [left]
  exact Nat.sub_lt counted Nat.one_pos

theorem unvisited_leave_le (detector : Detector) (id : TargetId) :
    (detector.leave id).unvisited ≤ detector.unvisited := by
  obtain held | beyond := Nat.lt_or_ge id detector.marks.length
  · simp only [unvisited, leave, List.count_set held]
    simp
  · simp [unvisited, leave, List.set_eq_of_length_le beyond]

/-! ## Searching -/

/-- Visit targets one after the other. A target not met so far is marked as open while its
dependencies are visited, and as finished afterwards. -/
def search (store : Store) (detector : Detector) :
    List TargetId → Except Halt { after : Detector // after.unvisited ≤ detector.unvisited }
  | [] => .ok ⟨detector, Nat.le_refl _⟩
  | id :: rest =>
    if unmet : detector.mark id = .unvisited then
      have fewer := unvisited_enter_lt unmet
      match (detector.enter id).search store (store.edges id) with
      | .error halt => .error halt
      | .ok ⟨below, fewerBelow⟩ =>
        have fewerLeft := unvisited_leave_le below id
        match (below.leave id).search store rest with
        | .error halt => .error halt
        | .ok ⟨after, fewerAfter⟩ => .ok ⟨after, by omega⟩
    else if detector.mark id = .visiting then .error (detector.halt id)
    else detector.search store rest
termination_by ids => (detector.unvisited, ids.length)
decreasing_by
  · exact Prod.Lex.left _ _ fewer
  · exact Prod.Lex.left _ _ (by omega)
  · exact Prod.Lex.right _ (Nat.lt_succ_self _)

def start (store : Store) : Detector := ⟨List.replicate store.size .unvisited, []⟩

end Detector

def Store.detectCycle (store : Store) : Except TargetId (Option (List TargetId)) :=
  match (Detector.start store).search store store.ids with
  | .error (.cycle path) => .ok (some path)
  | .error (.astray id) => .error id
  | .ok _ => .ok none

namespace Detector

variable {detector : Detector} {path fresh : List TargetId} {id : TargetId}

/-! ## Marks and the path -/

structure Tracks (detector : Detector) (path fresh : List TargetId) : Prop where
  stack : detector.stack = path.reverse
  visiting : ∀ id, detector.mark id = .visiting ↔ id ∈ path
  unvisited : ∀ id, detector.mark id = .unvisited ↔ id ∈ fresh
  nodup : path.Nodup
  fresh_nodup : fresh.Nodup

namespace Tracks

theorem start (store : Store) : (Detector.start store).Tracks [] store.ids where
  stack := rfl
  visiting id := by
    by_cases held : id < store.size <;> simp [mark, Detector.start, held]
  unvisited id := by
    by_cases held : id < store.size <;>
      simp [mark, Detector.start, Store.ids, held]
  nodup := .nil
  fresh_nodup := List.nodup_range

theorem enter (tracks : detector.Tracks path fresh) (unmet : id ∈ fresh) (outside : id ∉ path) :
    (detector.enter id).Tracks (id :: path) (fresh.erase id) := by
  have marked := (tracks.unvisited id).mpr unmet
  have held : id < detector.marks.length := lt_of_mark_ne (by simp [marked])
  constructor
  · simp [Detector.enter, tracks.stack]
  · intro other
    rw [mark_enter held, List.mem_cons]
    split
    · next same => simp [same]
    · next different => simp [tracks.visiting, different]
  · intro other
    rw [mark_enter held, tracks.fresh_nodup.mem_erase_iff]
    split
    · next same => simp [same]
    · next different => simp [tracks.unvisited, different]
  · exact List.nodup_cons.mpr ⟨outside, tracks.nodup⟩
  · exact tracks.fresh_nodup.erase id

theorem leave (tracks : detector.Tracks (id :: path) fresh) :
    (detector.leave id).Tracks path fresh := by
  have marked := (tracks.visiting id).mpr List.mem_cons_self
  have held : id < detector.marks.length := lt_of_mark_ne (by simp [marked])
  obtain ⟨outside, nodup⟩ := List.nodup_cons.mp tracks.nodup
  constructor
  · simp [Detector.leave, tracks.stack]
  · intro other
    rw [mark_leave held]
    split
    · next same => simp [same, outside]
    · next different => simp [tracks.visiting, different]
  · intro other
    rw [mark_leave held]
    split
    · next same =>
      have met : id ∉ fresh := fun unmet => by simp [(tracks.unvisited id).mpr unmet] at marked
      simp [same, met]
    · exact tracks.unvisited other
  · exact nodup
  · exact tracks.fresh_nodup

theorem halt (tracks : detector.Tracks path fresh) (around : id ∈ path) :
    detector.halt id = .cycle (Cycle.fromLeast (Cycle.closing path id)) := by
  obtain ⟨front, back, rfl, outside⟩ := List.eq_append_cons_of_mem around
  have behind : id ∉ back := fun member =>
    (List.nodup_cons.mp tracks.nodup.of_append_right).1 member
  have stack : detector.stack = back.reverse ++ id :: front.reverse := by
    simp [tracks.stack]
  have place : detector.stack.idxOf? id = some back.reverse.length := by
    rw [stack, List.idxOf?, List.findIdx?_append, List.findIdx?_eq_none_iff.mpr, Option.none_or]
    · simp [List.findIdx?_cons]
    · intro other member
      exact beq_false_of_ne fun same => behind (same ▸ List.mem_reverse.mp member)
  rw [Detector.halt, place]
  dsimp only
  rw [stack, List.drop_left, List.cons_append, Cycle.closing_append outside]

end Tracks

/-! ## The two searches -/

/-- Both searches close the same cycle, or both come to an end with the same targets not met. -/
theorem search_of_tracks (store : Store) (ids : List TargetId)
    (tracks : detector.Tracks path fresh) :
    (∀ cycle, store.searchCycle path fresh ids = .error cycle →
      detector.search store ids = .error (.cycle cycle)) ∧
    ∀ left, store.searchCycle path fresh ids = .ok left →
      ∃ after, detector.search store ids = .ok after ∧ after.val.Tracks path left.val := by
  -- By induction along the search that has a path. `Tracks` goes down with `enter` and comes
  -- back with `leave`.
  fun_induction Store.searchCycle store path fresh ids generalizing detector with
  | case1 path fresh =>
    refine ⟨fun _ failed => (by cases failed), ?_⟩
    rintro left ⟨⟩
    exact ⟨_, by rw [search], tracks⟩
  | case2 path fresh id rest around =>
    have marked := (tracks.visiting id).mpr around
    refine ⟨?_, fun _ found => (by cases found)⟩
    rintro cycle ⟨⟩
    rw [search, dif_neg (by simp [marked]), if_pos marked, tracks.halt around]
  | case3 path fresh id rest outside unmet fewer found below ih =>
    have marked := (tracks.unvisited id).mpr unmet
    refine ⟨?_, fun _ found => (by cases found)⟩
    rintro cycle ⟨⟩
    rw [search, dif_pos marked, (ih (tracks.enter unmet outside)).1 _ below]
  | case4 path fresh id rest outside unmet fewer middle fewerLeft below found beside ihBelow ih =>
    have marked := (tracks.unvisited id).mpr unmet
    refine ⟨?_, fun _ found => (by cases found)⟩
    rintro cycle ⟨⟩
    obtain ⟨inner, searched, tracksInner⟩ := (ihBelow (tracks.enter unmet outside)).2 _ below
    rw [search, dif_pos marked, searched]
    dsimp only
    rw [(ih tracksInner.leave).1 _ beside]
  | case5 path fresh id rest outside unmet fewer middle fewerLeft below last bounded beside
      ihBelow ih =>
    have marked := (tracks.unvisited id).mpr unmet
    refine ⟨fun _ failed => (by cases failed), ?_⟩
    rintro left ⟨⟩
    obtain ⟨inner, searched, tracksInner⟩ := (ihBelow (tracks.enter unmet outside)).2 _ below
    obtain ⟨after, searchedRest, tracksAfter⟩ := (ih tracksInner.leave).2 _ beside
    rw [search, dif_pos marked, searched]
    dsimp only
    rw [searchedRest]
    exact ⟨_, rfl, tracksAfter⟩
  | case6 path fresh id rest outside met ih =>
    have unmarked := mt (tracks.unvisited id).mp met
    have closed := mt (tracks.visiting id).mp outside
    rw [search, dif_neg unmarked, if_neg closed]
    exact ih tracks

end Detector

namespace Store

variable {store : Store}

/-- The search with marks is never at a loss, and it finds what the search along a path finds. -/
theorem detectCycle_eq (store : Store) : store.detectCycle = .ok store.cycle? := by
  obtain ⟨fails, succeeds⟩ := Detector.search_of_tracks store store.ids (.start store)
  rw [detectCycle, cycle?]
  cases searched : store.searchCycle [] store.ids store.ids with
  | error cycle => rw [fails cycle searched]
  | ok left =>
    obtain ⟨after, found, -⟩ := succeeds left searched
    rw [found]

/-- If the edges stay in the store, nothing is found exactly when no target leads to itself, and
what is found is a closed path that repeats no target and starts at its smallest number. No target
that is marked as open is missing on the stack. -/
theorem cycle?_exact (closed : Tree.Closed store) :
    (store.cycle? = none ↔ ¬ store.Cyclic) ∧
      (∀ cycle, store.cycle? = some cycle → store.CanonicalCycle cycle) ∧
      store.detectCycle = .ok store.cycle? := by
  refine ⟨?_, fun cycle => canonicalCycle_of_cycle?, detectCycle_eq store⟩
  rw [← cycle?_isSome_iff closed, Option.not_isSome_iff_eq_none]

/-- Two cycles and a self edge meet in one target, and the search comes in from outside. -/
theorem cycle?_exact_shared :
    let store : Store := ⟨[⟨0, "app", .executable, none, [3, 3], true⟩,
      ⟨1, "a", .library, none, [2], true⟩, ⟨2, "b", .library, none, [3, 2], true⟩,
      ⟨3, "c", .library, none, [1, 3], true⟩]⟩
    Tree.Closed store ∧ store.cycle? = some [1, 2, 3, 1] ∧ store.CanonicalCycle [1, 2, 3, 1] ∧
      store.detectCycle = .ok (some [1, 2, 3, 1]) ∧ store.Cyclic := by
  intro store
  have closed : Tree.Closed store := by
    intro owner dependency edge
    obtain ⟨target, held, listed⟩ := dependsOn_iff.mp edge
    have bounded : ∀ target ∈ store.targets, ∀ id ∈ target.dependencies, id < store.size := by
      decide
    exact bounded target (List.mem_of_getElem? held) dependency listed
  have found : store.cycle? = some [1, 2, 3, 1] := by cbv
  obtain ⟨complete, sound, detected⟩ := cycle?_exact closed
  have cyclic : store.Cyclic := by
    by_contra acyclic
    rw [complete.mpr acyclic] at found
    cases found
  exact ⟨closed, found, sound _ found, found ▸ detected, cyclic⟩

end Store

end BuildGraph
