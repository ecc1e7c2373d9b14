import BuildGraph.Proofs.Engine.Drive
import BuildGraph.Proofs.Engine.Moves
import BuildGraph.Proofs.Verdict.Report

/-! Verdicts of the projects of a compilation.

In a document only keys get dependencies, and a key is declared. So no project has a target that
misses an executable, though calls on a store can make one.
-/

set_option autoImplicit false

namespace BuildGraph

open Store

variable {events : List Event} {projects : List Project} {project : Project} {draft : Draft}
  {owners : List TargetId} {id : TargetId}

/-- The graph of a project has been read from nothing, with all scopes closed in the end. -/
theorem exists_moves_of_compile (compiled : compile events = .ok projects)
    (member : project ∈ projects) :
    ∃ draft, Draft.Moves .empty [] draft [] ∧ project = .ofStore draft.store := by
  obtain ⟨front, back, last, next, -, driven, ended, same⟩ :=
    Engine.exists_documentEnd_of_compileFrom .initial compiled member
  have reached : Engine.Reached Engine.Closed last := Engine.Reached.initial.drive driven
  exact ⟨next.draft, reached.completed_moves ended, same⟩

theorem Draft.Keyed.declared_of_edges (keyed : draft.Keyed owners)
    (linked : draft.store.edges id ≠ []) : draft.store.declared? id = some true := by
  obtain ⟨dependency, edge⟩ := List.exists_mem_of_ne_nil _ linked
  exact keyed.keys edge

theorem Draft.Keyed.edges_of_undeclared (keyed : draft.Keyed owners)
    (undeclared : draft.store.declared? id = some false) : draft.store.edges id = [] := by
  by_cases alone : draft.store.edges id = []
  · exact alone
  · rw [keyed.declared_of_edges alone] at undeclared
    cases undeclared

theorem Draft.Keyed.not_missesExecutable (keyed : draft.Keyed owners) :
    ¬ draft.store.MissesExecutable id := by
  intro misses
  obtain ⟨target, held, -, undeclared⟩ := misses.undeclared
  have declared := keyed.declared_of_edges misses.linked
  rw [declared?, held, Option.map_some, undeclared] at declared
  cases declared

theorem Project.isValid_iff : project.isValid = true ↔ project.report.project = .valid := by
  unfold Project.isValid ProjectVerdict.isValid
  cases project.report.project <;> simp

theorem exists_of_mem_verdicts {store : Store} {verdict : Verdict}
    (listed : verdict ∈ store.report.verdicts) : ∃ id, store.verdict? id = some verdict := by
  obtain ⟨id, found⟩ := List.getElem?_of_mem listed
  exact ⟨id, (report_verdict? store id).symm.trans found⟩

/-- In a project a target that was not declared has no dependencies and is one, and every target
with dependencies was declared. So a target is valid or ambiguous, and a project is valid unless
some target depends on two different targets that are marked as executables. -/
theorem compiled_verdicts (compiled : compile events = .ok projects) :
    ∀ project ∈ projects,
      (∀ id, project.targets.declared? id = some false →
        project.targets.edges id = [] ∧ ∃ owner, project.targets.DependsOn owner id) ∧
      (∀ id, project.targets.edges id ≠ [] → project.targets.declared? id = some true) ∧
      (∀ verdict ∈ project.report.verdicts, verdict = .valid ∨ verdict = .ambiguous) ∧
      (project.isValid = true ↔ ∀ id, ¬ project.targets.Ambiguous id) := by
  intro project member
  obtain ⟨draft, moves, rfl⟩ := exists_moves_of_compile compiled member
  have keyed := moves.keyed .empty
  have coherent := (moves.built .empty).coherent
  refine ⟨fun id undeclared => ⟨keyed.edges_of_undeclared undeclared, keyed.listed undeclared⟩,
    fun id linked => keyed.declared_of_edges linked, fun verdict listed => ?_, ?_⟩
  · obtain ⟨id, given⟩ := exists_of_mem_verdicts listed
    have meant := coherent.says_of_verdict? given
    cases verdict with
    | valid => exact .inl rfl
    | ambiguous => exact .inr rfl
    | missingExecutable => exact absurd meant keyed.not_missesExecutable
  · rw [Project.isValid_iff]
    refine (report_project_valid_iff draft.store).trans ⟨fun valid id ambiguous => ?_, ?_⟩
    · obtain ⟨-, clear, -⟩ := coherent.verdict?_iff.mp (valid id ambiguous.lt)
      exact clear ambiguous
    · exact fun clear id held =>
        coherent.verdict?_iff.mpr ⟨held, clear id, keyed.not_missesExecutable⟩

/-- A list names two executables and its owner, then a key and a target that is nowhere else. The
first key is ambiguous, and what was only listed has no dependencies. -/
theorem compiled_verdicts_ambiguous :
    let events := [Event.documentStart, .scalar "app", .listStart, .scalar "a*", .scalar "b*",
      .scalar "app", .listEnd, .scalar "a", .mappingStart, .scalar "log", .mappingEnd, .documentEnd]
    let store : Store := ⟨[⟨0, "app", .library, none, [1, 2, 0], true⟩,
      ⟨1, "a", .executable, some .executable, [3], true⟩,
      ⟨2, "b", .executable, some .executable, [], false⟩,
      ⟨3, "log", .library, none, [], true⟩]⟩
    compile events = .ok [.ofStore store] ∧
      store.Ambiguous 0 ∧ (Project.ofStore store).isValid = false ∧
      (∀ verdict ∈ store.report.verdicts, verdict = .valid ∨ verdict = .ambiguous) ∧
      store.edges 2 = [] ∧ (∃ owner, store.DependsOn owner 2) ∧
      store.declared? 1 = some true := by
  intro events store
  have compiled : compile events = .ok [.ofStore store] := rfl
  obtain ⟨undeclared, declared, verdicts, valid⟩ := compiled_verdicts compiled _ List.mem_cons_self
  have ambiguous : store.Ambiguous 0 :=
    ⟨1, 2, List.mem_of_elem_eq_true rfl, List.mem_of_elem_eq_true rfl, by decide, rfl, rfl⟩
  have invalid : (Project.ofStore store).isValid = false :=
    eq_false_of_ne_true fun isValid => valid.mp isValid 0 ambiguous
  have ⟨alone, listed⟩ := undeclared 2 rfl
  exact ⟨compiled, ambiguous, invalid, verdicts, alone, listed, declared 1 (List.cons_ne_nil 3 [])⟩

end BuildGraph
