import BuildGraph.Proofs.Store.Built
import BuildGraph.Proofs.Verdict.Anchor

/-! Verdicts told by the graph alone.

A verdict is computed from usages, which are changed as edges are added. In a store that calls
have built it can be told from the edges, the hints and the declarations.
-/

set_option autoImplicit false

namespace BuildGraph.Store

variable {store : Store} {id : TargetId} {target : Target} {verdict : Verdict}

/-! ## Two different executables -/

section

variable {α : Type} [BEq α]

/-- The runs found so far are kept, and the one that has begun is added. -/
theorem length_lt_length_eraseReps_loop (first : α) (rest runs : List α) :
    runs.length < (List.eraseRepsBy.loop (· == ·) first rest runs).length := by
  induction rest generalizing first runs with
  | nil => simp [List.eraseRepsBy.loop]
  | cons next rest ih =>
    rw [List.eraseRepsBy.loop]
    split
    · exact ih first runs
    · exact Nat.lt_of_succ_lt (ih next (first :: runs))

variable [LawfulBEq α]

theorem one_run_iff (first : α) (rest runs : List α) :
    (List.eraseRepsBy.loop (· == ·) first rest runs).length = runs.length + 1 ↔
      ∀ other ∈ rest, first = other := by
  induction rest generalizing first runs with
  | nil => simp [List.eraseRepsBy.loop]
  | cons next rest ih =>
    rw [List.eraseRepsBy.loop, List.forall_mem_cons]
    split
    · next same => rw [ih, and_iff_right (eq_of_beq same)]
    · next different =>
      have more := length_lt_length_eraseReps_loop next rest (first :: runs)
      rw [List.length_cons] at more
      have distinct : first ≠ next := ne_of_beq_false different
      exact iff_of_false (by omega) fun all => distinct all.1

theorem two_le_length_eraseReps_iff (list : List α) :
    2 ≤ list.eraseReps.length ↔ ∃ a ∈ list, ∃ b ∈ list, a ≠ b := by
  cases list with
  | nil => simp [List.eraseReps, List.eraseRepsBy]
  | cons first rest =>
    have least := length_lt_length_eraseReps_loop first rest []
    have single := one_run_iff first rest []
    rw [List.length_nil] at least single
    rw [List.eraseReps, List.eraseRepsBy]
    constructor
    · intro several
      have differ : ¬ ∀ other ∈ rest, first = other := fun all => by
        rw [single.mpr all] at several
        omega
      simp only [Classical.not_forall] at differ
      obtain ⟨other, member, different⟩ := differ
      exact ⟨first, List.mem_cons_self, other, List.mem_cons_of_mem _ member, different⟩
    · rintro ⟨a, memberA, b, memberB, different⟩
      have several := mt single.mp fun all => by
        have same : ∀ other ∈ first :: rest, first = other := List.forall_mem_cons.mpr ⟨rfl, all⟩
        exact different ((same a memberA).symm.trans (same b memberB))
      omega

end

theorem linksManyExecutables_iff : store.linksManyExecutables target = true ↔
    ∃ a ∈ target.dependencies, ∃ b ∈ target.dependencies,
      a ≠ b ∧ store.isExecutable a = true ∧ store.isExecutable b = true := by
  simp only [linksManyExecutables, decide_eq_true_eq, two_le_length_eraseReps_iff,
    List.mem_mergeSort, List.mem_filter]
  constructor
  · rintro ⟨a, ⟨listedA, executableA⟩, b, ⟨listedB, executableB⟩, different⟩
    exact ⟨a, listedA, b, listedB, different, executableA, executableB⟩
  · rintro ⟨a, listedA, b, listedB, different, executableA, executableB⟩
    exact ⟨a, ⟨listedA, executableA⟩, b, ⟨listedB, executableB⟩, different⟩

/-! ## What the verdicts say -/

def Ambiguous (store : Store) (id : TargetId) : Prop :=
  ∃ a b, store.DependsOn id a ∧ store.DependsOn id b ∧ a ≠ b ∧
    store.MarksExecutable a ∧ store.MarksExecutable b

def Anchored (store : Store) (id : TargetId) : Prop :=
  ∃ leaf, leaf ≠ id ∧ store.LeadsTo id leaf ∧ store.edges leaf = [] ∧ store.MarksExecutable leaf

structure MissesExecutable (store : Store) (id : TargetId) : Prop where
  clear : ¬ store.Ambiguous id
  linked : store.edges id ≠ []
  undeclared : ∃ target, store.get? id = some target ∧ target.usage = .executable ∧
    target.declared = false
  unanchored : ¬ store.Anchored id

theorem Coherent.linksManyExecutables_iff (coherent : store.Coherent)
    (held : store.get? id = some target) :
    store.linksManyExecutables target = true ↔ store.Ambiguous id := by
  rw [Store.linksManyExecutables_iff, ← edges_of_get? held]
  constructor
  · rintro ⟨a, edgeA, b, edgeB, different, executableA, executableB⟩
    exact ⟨a, b, edgeA, edgeB, different,
      (coherent.isExecutable_of_dependsOn edgeA).mp executableA,
      (coherent.isExecutable_of_dependsOn edgeB).mp executableB⟩
  · rintro ⟨a, b, edgeA, edgeB, different, markedA, markedB⟩
    exact ⟨a, edgeA, b, edgeB, different,
      (coherent.isExecutable_of_dependsOn edgeA).mpr markedA,
      (coherent.isExecutable_of_dependsOn edgeB).mpr markedB⟩

theorem Coherent.isAnchored_iff (coherent : store.Coherent) :
    store.isAnchored id = true ↔ store.Anchored id := by
  rw [Store.isAnchored_iff]
  refine exists_congr fun leaf => and_congr_right fun _ => and_congr_right fun path => ?_
  -- The last edge of the path makes the leaf a dependency.
  obtain ⟨owner, -, edge⟩ := Relation.TransGen.tail'_iff.mp path
  rw [isExecutableLeaf, Bool.and_eq_true, List.isEmpty_iff,
    coherent.isExecutable_of_dependsOn edge, and_comm]

theorem not_ambiguous_of_no_edges (alone : store.edges id = []) : ¬ store.Ambiguous id := by
  rintro ⟨a, b, edge, -⟩
  rw [DependsOn, alone] at edge
  cases edge

theorem Ambiguous.lt (ambiguous : store.Ambiguous id) : id < store.size := by
  obtain ⟨a, b, edge, -⟩ := ambiguous
  exact lt_of_dependsOn edge

theorem MissesExecutable.lt (misses : store.MissesExecutable id) : id < store.size := by
  obtain ⟨target, held, -⟩ := misses.undeclared
  exact lt_of_get? held

theorem verdict?_eq_none_iff : store.verdict? id = none ↔ store.size ≤ id := by
  rw [verdict?, Option.map_eq_none_iff, get?_eq_none_iff]

theorem lt_of_verdict? (given : store.verdict? id = some verdict) : id < store.size := by
  obtain ⟨target, held, -⟩ := Option.map_eq_some_iff.mp given
  exact lt_of_get? held

def Says (store : Store) (id : TargetId) : Verdict → Prop
  | .ambiguous => store.Ambiguous id
  | .missingExecutable => store.MissesExecutable id
  | .valid => ¬ store.Ambiguous id ∧ ¬ store.MissesExecutable id

theorem Says.unique {first second : Verdict} (left : store.Says id first)
    (right : store.Says id second) : first = second := by
  cases first <;> cases second <;> try rfl
  · exact absurd right left.1
  · exact absurd right left.2
  · exact absurd left right.1
  · exact absurd left right.clear
  · exact absurd left right.2
  · exact absurd right left.clear

theorem Coherent.says_of_verdict? (coherent : store.Coherent)
    (given : store.verdict? id = some verdict) : store.Says id verdict := by
  obtain ⟨target, held, rfl⟩ := Option.map_eq_some_iff.mp given
  have edges := edges_of_get? held
  have many := coherent.linksManyExecutables_iff held
  split
  · next alone =>
    have none : store.edges id = [] := edges.trans alone
    exact ⟨not_ambiguous_of_no_edges none, fun misses => misses.linked none⟩
  · next linked =>
    split
    · next several => exact many.mp several
    · next few =>
      have clear : ¬ store.Ambiguous id := mt many.mpr few
      split
      · next misses =>
        obtain ⟨executable, undeclared, unanchored⟩ := misses
        exact ⟨clear, edges ▸ linked, ⟨target, held, executable, eq_false_of_ne_true undeclared⟩,
          mt coherent.isAnchored_iff.mpr unanchored⟩
      · next settles =>
        refine ⟨clear, fun misses => settles ?_⟩
        obtain ⟨other, same, executable, undeclared⟩ := misses.undeclared
        cases held.symm.trans same
        exact ⟨executable, ne_true_of_eq_false undeclared,
          mt coherent.isAnchored_iff.mp misses.unanchored⟩

theorem Coherent.verdict?_iff (coherent : store.Coherent) :
    store.verdict? id = some verdict ↔ id < store.size ∧ store.Says id verdict := by
  constructor
  · exact fun given => ⟨lt_of_verdict? given, coherent.says_of_verdict? given⟩
  · rintro ⟨held, meant⟩
    cases given : store.verdict? id with
    | none => exact absurd (verdict?_eq_none_iff.mp given) (Nat.not_le_of_lt held)
    | some other => rw [meant.unique (coherent.says_of_verdict? given)]

/-! ## The report -/

theorem exists_verdict (held : id < store.size) : ∃ verdict, store.verdict? id = some verdict :=
  Option.ne_none_iff_exists'.mp fun none =>
    absurd (verdict?_eq_none_iff.mp none) (Nat.not_le_of_lt held)

theorem report_verdict? (store : Store) (id : TargetId) :
    store.report.verdict? id = store.verdict? id := by
  obtain held | unknown := Nat.lt_or_ge id store.size
  · obtain ⟨verdict, given⟩ := exists_verdict held
    simp [report, Report.verdict?, ids, held, given]
  · rw [verdict?_eq_none_iff.mpr unknown]
    simp [report, Report.verdict?, ids, unknown]

def firstFailing (store : Store) : Option TargetId :=
  store.ids.find? fun id => (store.verdict? id).getD .valid ≠ .valid

theorem report_project (store : Store) :
    store.report.project =
      match store.firstFailing with
      | none => .valid
      | some id => .invalid id ((store.verdict? id).getD .valid) := by
  rw [report, firstFailing, ← List.map_prod_left_eq_zip, List.find?_map]
  simp only [Function.comp_def]
  cases store.ids.find? _ <;> rfl

theorem firstFailing_eq_none_iff : store.firstFailing = none ↔
    ∀ id < store.size, store.verdict? id = some .valid := by
  rw [firstFailing, ids, List.find?_range_eq_none]
  refine forall_congr' fun id => forall_congr' fun held => ?_
  obtain ⟨verdict, given⟩ := exists_verdict held
  simp [given]

theorem firstFailing_eq_some_iff : store.firstFailing = some id ↔
    ∃ verdict, store.verdict? id = some verdict ∧ verdict ≠ .valid ∧
      ∀ lower < id, store.verdict? lower = some .valid := by
  rw [firstFailing, ids, List.find?_range_eq_some, List.mem_range]
  constructor
  · rintro ⟨failing, held, others⟩
    obtain ⟨verdict, given⟩ := exists_verdict held
    refine ⟨verdict, given, by simpa [given] using failing, fun lower before => ?_⟩
    obtain ⟨other, givenOther⟩ := exists_verdict (Nat.lt_trans before held)
    have valid := others lower before
    simp only [givenOther, Option.getD_some] at valid
    simpa [givenOther] using valid
  · rintro ⟨verdict, given, failing, others⟩
    refine ⟨by simpa [given] using failing, lt_of_verdict? given, fun lower before => ?_⟩
    simp [others lower before]

theorem report_project_valid_iff (store : Store) :
    store.report.project = .valid ↔ ∀ id < store.size, store.verdict? id = some .valid := by
  rw [report_project, ← firstFailing_eq_none_iff]
  cases store.firstFailing <;> simp

theorem report_project_invalid_iff (store : Store) (id : TargetId) (verdict : Verdict) :
    store.report.project = .invalid id verdict ↔
      store.verdict? id = some verdict ∧ verdict ≠ .valid ∧
        ∀ lower < id, store.verdict? lower = some .valid := by
  rw [report_project]
  constructor
  · intro project
    cases first : store.firstFailing with
    | none =>
      rw [first] at project
      cases project
    | some failing =>
      rw [first] at project
      obtain ⟨found, given, rest⟩ := firstFailing_eq_some_iff.mp first
      simp only [given, Option.getD_some, ProjectVerdict.invalid.injEq] at project
      obtain ⟨rfl, rfl⟩ := project
      exact ⟨given, rest⟩
  · rintro ⟨given, rest⟩
    simp [firstFailing_eq_some_iff.mpr ⟨verdict, given, rest⟩, given]

/-! ## Verdicts of a built store -/

/-- Every target of a store gets a verdict, and no other number does. The verdict is told by the
edges, the hints, the usages and the declarations. The report lists the verdicts by number, and
the project fails at the lowest target that is not valid. -/
theorem built_verdicts (built : store.Built) :
    (∀ id,
      (store.verdict? id = none ↔ store.size ≤ id) ∧
      (store.verdict? id = some .ambiguous ↔ store.Ambiguous id) ∧
      (store.verdict? id = some .missingExecutable ↔ store.MissesExecutable id) ∧
      (store.verdict? id = some .valid ↔
        id < store.size ∧ ¬ store.Ambiguous id ∧ ¬ store.MissesExecutable id) ∧
      store.report.verdict? id = store.verdict? id) ∧
    (store.report.project = .valid ↔ ∀ id < store.size, store.verdict? id = some .valid) ∧
    (∀ id verdict, store.report.project = .invalid id verdict ↔
      store.verdict? id = some verdict ∧ verdict ≠ .valid ∧
        ∀ lower < id, store.verdict? lower = some .valid) := by
  have coherent := built.coherent
  refine ⟨fun id => ⟨verdict?_eq_none_iff, ?_, ?_, ?_, report_verdict? store id⟩,
    report_project_valid_iff store, report_project_invalid_iff store⟩
  · exact coherent.verdict?_iff.trans (and_iff_right_of_imp Ambiguous.lt)
  · exact coherent.verdict?_iff.trans (and_iff_right_of_imp MissesExecutable.lt)
  · exact coherent.verdict?_iff

/-- Some calls fail, an edge is repeated, and every target leads into a cycle, where nothing is
without dependencies. -/
theorem built_verdicts_cyclic :
    let calls := [Call.add "x", .add "*", .add "a*", .add "b*", .link 0 1, .link 0 1, .link 0 2,
      .link 1 0, .link 2 0, .link 7 0, .add "tool*", .link 3 1]
    let store : Store := ⟨[⟨0, "x", .library, none, [1, 1, 2], false⟩,
      ⟨1, "a", .executable, some .executable, [0], false⟩,
      ⟨2, "b", .executable, some .executable, [0], false⟩,
      ⟨3, "tool", .executable, some .executable, [1], false⟩]⟩
    calls.foldl after .empty = store ∧ store.Ambiguous 0 ∧ store.MissesExecutable 3 ∧
      store.report.project = .invalid 0 .ambiguous := by
  intro calls store
  have built : store.Built := Built.calls .empty calls
  obtain ⟨each, -, project⟩ := built_verdicts built
  have ambiguous : store.Ambiguous 0 :=
    ⟨1, 2, List.mem_of_elem_eq_true rfl, List.mem_of_elem_eq_true rfl, by decide, rfl, rfl⟩
  have first : store.verdict? 0 = some .ambiguous := (each 0).2.1.mpr ambiguous
  have last : store.verdict? 3 = some .missingExecutable := by cbv
  refine ⟨rfl, ambiguous, (each 3).2.2.1.mp last, (project 0 .ambiguous).mpr ⟨first, by decide, ?_⟩⟩
  exact fun lower below => absurd below (Nat.not_lt_zero lower)

end BuildGraph.Store
