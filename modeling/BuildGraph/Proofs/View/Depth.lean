import BuildGraph.Proofs.Command.Views
import BuildGraph.Proofs.View.Cycle
import BuildGraph.Proofs.View.Lasso
import BuildGraph.Verdict

/-! How deep the tree view can go.

A name is indented by twice the depth of its visit, and the view breaks off where this is more than
16 bits can hold. It shows the whole graph exactly when no visit of its walk is that deep. Around a
visit are as many different targets as it is deep, so this takes a large store; but a large store
need not be a strange one, and a long enough path will do.
-/

set_option autoImplicit false

namespace BuildGraph

namespace Tree

variable {store : Store} {visits rest : List Visit}

theorem canIndent_iff {depth : Nat} : canIndent depth = true ↔ depth < 32768 := by
  rw [canIndent, widest, decide_eq_true_iff]
  omega

/-- The expansions around a visit are of different targets. -/
theorem Shows.depth_le (shows : Shows store visits) : ∀ visit ∈ visits, visit.depth ≤ store.size := by
  intro visit member
  obtain ⟨before, after, rfl⟩ := List.append_of_mem member
  have fits := shows.fits before visit after rfl
  have opened : (enclosing before visit.depth).Sublist (expansions before.reverse) := by
    have kept : expansions (enclosing before visit.depth) = enclosing before visit.depth :=
      List.filter_eq_self.mpr fun above around => decide_eq_true (fits.opened above around)
    exact kept ▸ (climb_sublist before.reverse visit.depth).filter _
  calc visit.depth
    _ = (enclosing before visit.depth).length := fits.depth.symm
    _ ≤ (expansions before.reverse).length := opened.length_le
    _ ≤ (expansions (before ++ visit :: after)).length := by
      simp [expansions, List.filter_reverse]
    _ = store.size := by simpa [Store.ids] using shows.once.length_eq

/-- Nothing but further starts could be added to a view of the whole graph. -/
theorem Shows.flat_of_append (shows : Shows store visits) (more : Shows store (visits ++ rest)) :
    ∀ visit ∈ rest, visit.depth = 0 := by
  have counted := more.length
  rw [atDepth_append, List.length_append, List.length_append, shows.length] at counted
  have all : (rest.filter (·.depth = 0)).length = rest.length := by
    rw [atDepth, atDepth] at counted
    omega
  simpa using List.length_filter_eq_length_iff.mp all

theorem exists_mem_takeWhile_iff {p : Visit → Bool} {holds : Visit → Prop} :
    (∃ visit ∈ visits.takeWhile p, holds visit) ↔
      ∃ before visit after, visits = before ++ visit :: after ∧ holds visit ∧
        ∀ other ∈ before ++ [visit], p other = true := by
  constructor
  · rintro ⟨visit, member, met⟩
    obtain ⟨before, after, split⟩ := List.append_of_mem member
    refine ⟨before, visit, after ++ visits.dropWhile p, ?_, met, fun other found => ?_⟩
    · rw [← List.cons_append, ← List.append_assoc, ← split, List.takeWhile_append_dropWhile]
    · refine List.mem_takeWhile_imp (l := visits) ?_
      rw [split, List.append_cons]
      exact List.mem_append_left _ found
  · rintro ⟨before, visit, after, rfl, met, all⟩
    refine ⟨visit, ?_, met⟩
    rw [List.append_cons, List.takeWhile_append_of_pos all]
    simp

end Tree

namespace Store

variable {store : Store}

theorem treeVisits_append (store : Store) :
    store.treeVisits ++ store.treeWalk.dropWhile (fun visit => Tree.canIndent visit.depth) =
      store.treeWalk :=
  List.takeWhile_append_dropWhile

theorem treeVisits_eq_treeWalk (shallow : ∀ visit ∈ store.treeWalk, visit.depth < 32768) :
    store.treeVisits = store.treeWalk :=
  List.takeWhile_eq_self_iff.mpr fun visit member => Tree.canIndent_iff.mpr (shallow visit member)

theorem depth_lt_of_mem_treeVisits {visit : Tree.Visit} (written : visit ∈ store.treeVisits) :
    visit.depth < 32768 :=
  Tree.canIndent_iff.mp
    (List.mem_takeWhile_imp (p := fun visit : Tree.Visit => Tree.canIndent visit.depth) written)

theorem Built.treeWalk_shallow (built : store.Built) (small : store.size < 32768) :
    ∀ visit ∈ store.treeWalk, visit.depth < 32768 :=
  fun visit member => Nat.lt_of_le_of_lt (built.shows_treeWalk.depth_le visit member) small

theorem treeIsWhole_iff :
    store.treeIsWhole = true ↔ ∀ visit ∈ store.treeWalk, visit.depth < 32768 := by
  simp only [treeIsWhole, List.all_eq_true, Tree.canIndent_iff]

theorem Built.shows_treeVisits_iff (built : store.Built) :
    Tree.Shows store store.treeVisits ↔ ∀ visit ∈ store.treeWalk, visit.depth < 32768 := by
  have whole := built.shows_treeWalk
  constructor
  · -- What is missing is not flat, as it begins with a visit that is too deep.
    intro shows visit member
    by_contra deep
    rw [← treeVisits_append] at member whole
    obtain written | missing := List.mem_append.mp member
    · exact deep (depth_lt_of_mem_treeVisits written)
    · have flat := shows.flat_of_append whole visit missing
      omega
  · intro shallow
    rw [treeVisits_eq_treeWalk shallow]
    exact whole

/-! ## The whole graph -/

/-- Whatever calls made the store, its tree view is printed line by line, and what is written shows
every target and every entry of a dependency list, and expands each target at its first visit,
exactly when no visit of the walk is as deep as 32768. At the first such visit printing breaks off.
The walk itself always shows the whole graph, and in a store of fewer targets it is not so deep. -/
theorem built_treeVisits (built : store.Built) :
    (Tree.Shows store store.treeVisits ↔ ∀ visit ∈ store.treeWalk, visit.depth < 32768) ∧
      (store.treeIsWhole = true ↔ ∀ visit ∈ store.treeWalk, visit.depth < 32768) ∧
      Prints (· = .full) store.printTree store.tree
        (if store.treeIsWhole then .ok () else .error .tooWide) ∧
      Tree.Shows store store.treeWalk ∧
      (store.size < 32768 → ∀ visit ∈ store.treeWalk, visit.depth < 32768) :=
  ⟨built.shows_treeVisits_iff, treeIsWhole_iff, prints_tree store, built.shows_treeWalk,
    built.treeWalk_shallow⟩

/-- Two targets below a root form a cycle and one is listed twice; a third depends on itself and
has no root. The last call fails. -/
theorem built_treeVisits_cyclic :
    let calls := [Call.add "a", .add "b", .add "c", .add "d", .add "e", .link 0 1, .link 0 1,
      .link 1 2, .link 2 1, .link 0 4, .link 3 3, .link 3 4, .link 9 0]
    let store : Store := ⟨[⟨0, "a", .executable, none, [1, 1, 4], false⟩,
      ⟨1, "b", .library, none, [2], false⟩, ⟨2, "c", .library, none, [1], false⟩,
      ⟨3, "d", .library, none, [3, 4], false⟩, ⟨4, "e", .library, none, [], false⟩]⟩
    let visits : List Tree.Visit := [⟨0, 0, .expanded⟩, ⟨1, 1, .expanded⟩, ⟨2, 2, .expanded⟩,
      ⟨1, 3, .cycle⟩, ⟨1, 1, .shownAbove⟩, ⟨4, 1, .expanded⟩, ⟨3, 0, .expanded⟩, ⟨3, 1, .cycle⟩,
      ⟨4, 1, .repeatedLeaf⟩]
    calls.foldl after .empty = store ∧ store.treeVisits = visits ∧ Tree.Shows store visits := by
  intro calls store visits
  have built : store.Built := Built.calls .empty calls
  have roots : store.roots = [0] := rfl
  have walk : store.treeWalk = visits := by
    rw [treeWalk, roots]
    cbv
  obtain ⟨exactly, -, -, -, small⟩ := built_treeVisits built
  have shallow := small (by decide)
  have written : store.treeVisits = visits := (treeVisits_eq_treeWalk shallow).trans walk
  exact ⟨rfl, written, written ▸ exactly.mpr shallow⟩

/-- The self edge at the end of a path of 32768 targets is as deep as that. -/
theorem treeVisits_lasso :
    let store := (lassoCalls 32767).foldl after .empty
    store.treeIsWhole = false ∧ ¬ Tree.Shows store store.treeVisits := by
  intro store
  have built : store.Built := Built.calls .empty (lassoCalls 32767)
  obtain ⟨front, id, walk, -⟩ := lasso_treeWalk 32767 (by decide)
  have deep : ¬ ∀ visit ∈ store.treeWalk, visit.depth < 32768 := by
    intro shallow
    exact Nat.lt_irrefl _ (shallow ⟨id, 32768, .cycle⟩ (walk ▸ List.mem_concat_self))
  exact ⟨Bool.eq_false_iff.mpr (mt treeIsWhole_iff.mp deep), mt built.shows_treeVisits_iff.mp deep⟩

/-! ## Cycles -/

/-- Whatever calls made the store, a visit that is written is marked as a cycle only if the search
finds a cycle, which is the one in the report. The converse holds exactly when some visit of the
walk is marked before the view breaks off, and so in every store of fewer than 32768 targets. The
walk itself always meets a cycle when there is one. -/
theorem built_cycle_marks (built : store.Built) :
    (((∃ visit ∈ store.treeVisits, visit.mark = .cycle) ↔ store.cycle?.isSome = true) ↔
        (store.Cyclic → ∃ before visit after, store.treeWalk = before ++ visit :: after ∧
          visit.mark = .cycle ∧ ∀ other ∈ before ++ [visit], other.depth < 32768)) ∧
      ((∃ visit ∈ store.treeVisits, visit.mark = .cycle) → store.cycle?.isSome = true) ∧
      (store.size < 32768 →
        ((∃ visit ∈ store.treeVisits, visit.mark = .cycle) ↔ store.cycle?.isSome = true)) ∧
      store.report.cycle = store.cycle? ∧
      (store.cycle?.isSome = true ↔ store.Cyclic) ∧
      ((∃ visit ∈ store.treeWalk, visit.mark = .cycle) ↔ store.Cyclic) := by
  have closed : Tree.Closed store := fun _ _ edge => built.coherent.closed edge
  have found := cycle?_isSome_iff closed
  have walked := treeWalk_cycle_iff closed
  have written : (∃ visit ∈ store.treeVisits, visit.mark = .cycle) ↔ _ :=
    Tree.exists_mem_takeWhile_iff
  simp only [Tree.canIndent_iff] at written
  have only : (∃ visit ∈ store.treeVisits, visit.mark = .cycle) → store.Cyclic := by
    rintro ⟨visit, member, mark⟩
    exact walked.mp ⟨visit, (List.takeWhile_sublist _).subset member, mark⟩
  refine ⟨?_, fun marked => found.mpr (only marked), fun small => ?_, rfl, found, walked⟩
  · rw [found, ← written]
    exact ⟨fun agree cyclic => agree.mpr cyclic, fun marks => ⟨only, marks⟩⟩
  · rw [treeVisits_eq_treeWalk (built.treeWalk_shallow small), walked, found]

/-- The second dependency of the only root is first shown below the first one. The cycle starts
behind what is shown twice, and its search starts at the other end. -/
theorem built_cycle_marks_shared :
    let calls := [Call.add "c", .add "b", .add "a", .add "d", .link 2 1, .link 2 0, .link 1 3,
      .link 0 3, .link 0 1, .link 1 0, .link 5 5]
    let store : Store := ⟨[⟨0, "c", .library, none, [3, 1], false⟩,
      ⟨1, "b", .library, none, [3, 0], false⟩, ⟨2, "a", .executable, none, [1, 0], false⟩,
      ⟨3, "d", .library, none, [], false⟩]⟩
    calls.foldl after .empty = store ∧ store.cycle? = some [0, 1, 0] ∧
      store.report.cycle.isSome = true ∧ ∃ visit ∈ store.treeVisits, visit.mark = .cycle := by
  intro calls store
  have built : store.Built := Built.calls .empty calls
  have found : store.cycle? = some [0, 1, 0] := by cbv
  obtain ⟨-, -, small, reported, -, -⟩ := built_cycle_marks built
  have marked : ∃ visit ∈ store.treeVisits, visit.mark = .cycle :=
    (small (by decide)).mpr (by rw [found]; rfl)
  exact ⟨rfl, found, by rw [reported, found]; rfl, marked⟩

/-- The self edge is the only cycle, and it is not written. -/
theorem cycle_marks_lasso :
    let store := (lassoCalls 32767).foldl after .empty
    store.cycle?.isSome = true ∧ store.report.cycle.isSome = true ∧
      ¬ ∃ visit ∈ store.treeVisits, visit.mark = .cycle := by
  intro store
  have built : store.Built := Built.calls .empty (lassoCalls 32767)
  have closed : Tree.Closed store := fun _ _ edge => built.coherent.closed edge
  have self : store.DependsOn 0 0 := lasso_dependsOn.mpr ⟨by decide, rfl⟩
  have found := (cycle?_isSome_iff closed).mpr ⟨0, .single self⟩
  refine ⟨found, found, ?_⟩
  rintro ⟨visit, written, mark⟩
  obtain ⟨front, id, walk, expanded⟩ := lasso_treeWalk 32767 (by decide)
  have member : visit ∈ front ++ [⟨id, 32768, .cycle⟩] :=
    walk ▸ (List.takeWhile_sublist _).subset written
  obtain above | last := List.mem_append.mp member
  · rw [expanded visit above] at mark
    cases mark
  · have shallow := depth_lt_of_mem_treeVisits written
    rw [List.mem_singleton.mp last] at shallow
    exact Nat.lt_irrefl _ shallow

end Store

end BuildGraph
