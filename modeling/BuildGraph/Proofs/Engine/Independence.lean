import BuildGraph.Proofs.Draft.Swap
import BuildGraph.Proofs.Engine.Refinement
import BuildGraph.Proofs.Verdict.Alike

/-! Entries without a common name can change places.

A document with two such entries side by side gives the same project in either order, up to the
numbers of the targets. It makes no difference what the entries before have made of the names, nor
whether the body stands in a mapping of its own.
-/

set_option autoImplicit false

namespace BuildGraph

namespace Outline

/-! ## Bodies of keys -/

mutual

def Entry.Keyed : Entry → Prop
  | .leaf _ => True
  | .list _ _ => True
  | .nested _ body => Keyed body
  | .bare _ => False

def Keyed : List Entry → Prop
  | [] => True
  | entry :: rest => entry.Keyed ∧ Keyed rest

end

theorem Entry.Keyed.not_isBare {entry : Entry} (keyed : entry.Keyed) : entry.isBare = false := by
  cases entry with
  | bare body => exact keyed.elim
  | _ => rfl

theorem Keyed.separated {body : List Entry} (keyed : Keyed body) : Separated body := by
  have next : ∀ {rest : List Entry}, Keyed rest → ∀ entry ∈ rest.head?, entry.isBare = false := by
    intro rest keyed entry first
    obtain ⟨others, rfl⟩ := List.head?_eq_some_iff.mp first
    exact keyed.1.not_isBare
  induction body using Outline.induction with
  | nil => trivial
  | leaf key rest ih => exact ⟨trivial, ih keyed.2, fun _ => next keyed.2⟩
  | list key names rest ih => exact ⟨trivial, ih keyed.2, nofun⟩
  | nested key body rest inner ih => exact ⟨inner keyed.1, ih keyed.2, nofun⟩
  | bare body rest => exact keyed.1.elim

theorem keyed_iff {body : List Entry} : Keyed body ↔ ∀ entry ∈ body, entry.Keyed := by
  induction body with
  | nil => exact iff_of_true trivial nofun
  | cons entry rest ih => rw [Keyed, ih, List.forall_mem_cons]

def cleanedNames (events : List Event) : List String :=
  events.filterMap fun event =>
    match event with
    | .scalar raw => (TargetName.ofString raw).toOption.map TargetName.cleaned
    | _ => none

theorem Reads.mem_cleanedNames {body : List Entry} {steps : List Reader.Step}
    (reads : Reads body steps) {cleaned : String} (read : Reader.mentions steps cleaned = true) :
    cleaned ∈ cleanedNames (bodyEvents body) := by
  obtain ⟨name, member, same⟩ := List.any_eq_true.mp read
  obtain ⟨raw, listed, named⟩ := reads.mentions name member
  obtain rfl := eq_of_beq same
  exact List.mem_filterMap.mpr ⟨.scalar raw, listed, by simp only [named]; rfl⟩

theorem Reads.balanced {body : List Entry} {steps : List Reader.Step} (reads : Reads body steps) :
    Reader.Balanced steps :=
  ⟨reads.spelled, reads.owners⟩

theorem bodyEvents_singleton (entry : Entry) : bodyEvents [entry] = entry.events := by
  rw [bodyEvents, bodyEvents, List.append_nil]

theorem Named.perm {body other : List Entry} (named : Named (bodyEvents body))
    (order : body.Perm other) : Named (bodyEvents other) := by
  intro raw member
  refine named raw ?_
  rw [bodyEvents_eq_flatMap, List.mem_flatMap] at member ⊢
  obtain ⟨entry, listed, inside⟩ := member
  exact ⟨entry, order.mem_iff.mpr listed, inside⟩

theorem Keyed.perm {body other : List Entry} (keyed : Keyed body) (order : body.Perm other) :
    Keyed other := by
  rw [keyed_iff] at keyed ⊢
  exact fun entry member => keyed entry (order.mem_iff.mpr member)

variable {front back : List Entry} {first second : Entry}

/-- In either order the entries are read in two parts that have no name in common. -/
theorem build_swap (named : Named (bodyEvents (front ++ first :: second :: back)))
    (independent : (cleanedNames first.events).Disjoint (cleanedNames second.events)) :
    ∃ draft swapped σ, build (front ++ first :: second :: back) = .ok draft ∧
      build (front ++ second :: first :: back) = .ok swapped ∧
      draft.store.Built ∧ swapped.store.Built ∧
      Store.Renumbered σ draft.store swapped.store := by
  have parts : ∀ one other : Entry, front ++ one :: other :: back =
      front ++ ([one] ++ ([other] ++ back)) := fun _ _ => rfl
  rw [parts, bodyEvents_append, bodyEvents_append, bodyEvents_append] at named
  obtain ⟨start, readsFront⟩ := exists_reads front named.left
  obtain ⟨steps, reads⟩ := exists_reads [first] named.right.left
  obtain ⟨stepsToo, readsToo⟩ := exists_reads [second] named.right.right.left
  obtain ⟨rest, readsBack⟩ := exists_reads back named.right.right.right
  have readsAll := readsFront.append (reads.append (readsToo.append readsBack))
  have readsSwapped := readsFront.append (readsToo.append (reads.append readsBack))
  obtain ⟨draft, built, read⟩ := readsAll.build .empty []
  obtain ⟨swapped, builtToo, readSwapped⟩ := readsSwapped.build .empty []
  have apart : ∀ cleaned, Reader.mentions steps cleaned = true →
      Reader.mentions stepsToo cleaned = false := by
    intro cleaned mentioned
    have inFirst := reads.mem_cleanedNames mentioned
    rw [bodyEvents_singleton] at inFirst
    by_contra both
    have inSecond := readsToo.mem_cleanedNames (eq_true_of_ne_false both)
    rw [bodyEvents_singleton] at inSecond
    exact independent inFirst inSecond
  have empty : Reader.Level ⟨.empty, []⟩ := ⟨.empty, rfl⟩
  have sound := (empty.readAll readsAll.balanced).sound.built
  have soundSwapped := (empty.readAll readsSwapped.balanced).sound.built
  obtain ⟨σ, renumbered⟩ := (empty.readAll readsFront.balanced).swap_readAll reads.balanced
    readsToo.balanced readsBack.balanced apart
  rw [← Reader.readAll_append, ← Reader.readAll_append, read, readSwapped] at renumbered
  rw [read] at sound
  rw [readSwapped] at soundSwapped
  exact ⟨draft, swapped, σ, built, builtToo, sound, soundSwapped, renumbered⟩

end Outline

namespace Engine

open Outline

theorem compile_of_build {body : List Entry} {draft : Draft} (separated : Separated body)
    (named : Named (bodyEvents body)) (built : build body = .ok draft) :
    compile (documentEvents body) = .ok [.ofStore draft.store] := by
  have fresh : initial.phase ≠ .active := nofun
  obtain ⟨other, opened, filled, deepest, same, starts, sound, driven, filledSound, ends⟩ :=
    drive_document separated named fresh
  obtain rfl := Except.ok.inj (same.symm.trans built)
  rw [compile, documentEvents, List.cons_append, compileFrom,
    feed_of_accepted Layered.initial starts]
  simp only [Event.progress]
  rw [compileFrom_append sound.toLayered (documentEnd_not_mem_bodyEvents body) driven,
    compileFrom, feed_of_accepted filledSound.toLayered ends]
  rfl

/-- A mapping around the whole body changes nothing. -/
theorem compile_of_build_bare {body : List Entry} {draft : Draft} (separated : Separated body)
    (named : Named (bodyEvents body)) (built : build body = .ok draft) :
    compile (documentEvents [.bare body]) = .ok [.ofStore draft.store] := by
  refine compile_of_build ⟨separated, trivial, nofun⟩ ?_ ?_
  · intro raw member
    rw [bodyEvents_bare] at member
    exact named raw (by simpa [bodyEvents] using member)
  · rw [build, buildBody_bare, ← build, built]
    rfl

/-- If two entries that follow each other mention no common name, a document gives the same project
with the two in the other order, but for the numbers of its targets. Names, usages, hints,
declarations, verdicts and the order of every dependency list stay, and a cycle is reported either
both times or not at all. -/
theorem compile_swap {front back : List Entry} {first second : Entry}
    (keyed : Keyed (front ++ first :: second :: back))
    (named : Named (bodyEvents (front ++ first :: second :: back)))
    (independent : (cleanedNames first.events).Disjoint (cleanedNames second.events)) :
    ∃ (project swapped : Project) (σ : Equiv.Perm TargetId),
      compile (documentEvents (front ++ first :: second :: back)) = .ok [project] ∧
      compile (documentEvents (front ++ second :: first :: back)) = .ok [swapped] ∧
      compile (documentEvents [.bare (front ++ first :: second :: back)]) = .ok [project] ∧
      compile (documentEvents [.bare (front ++ second :: first :: back)]) = .ok [swapped] ∧
      (∀ id, swapped.targets.get? (σ id) = (project.targets.get? id).map (Target.renumber σ)) ∧
      (∀ id, swapped.report.verdict? (σ id) = project.report.verdict? id) ∧
      (swapped.report.cycle.isSome = project.report.cycle.isSome) := by
  obtain ⟨draft, other, σ, built, builtToo, sound, soundToo, renumbered⟩ :=
    build_swap named independent
  have order : (front ++ first :: second :: back).Perm (front ++ second :: first :: back) :=
    (List.Perm.swap second first back).append_left front
  have keyedToo := keyed.perm order
  have namedToo := named.perm order
  refine ⟨.ofStore draft.store, .ofStore other.store, σ,
    compile_of_build keyed.separated named built,
    compile_of_build keyedToo.separated namedToo builtToo,
    compile_of_build_bare keyed.separated named built,
    compile_of_build_bare keyedToo.separated namedToo builtToo, renumbered, fun id => ?_, ?_⟩
  · simp only [Project.ofStore, Store.report_verdict?]
    exact renumbered.verdict? sound.coherent soundToo.coherent id
  · exact renumbered.cycle?_isSome sound.coherent soundToo.coherent

/-- Both entries change targets that were there before, one opens a scope, and one is on a cycle.
What comes after lists names of both. -/
theorem compile_swap_cyclic :
    let front := [Entry.list "app" ["log"]]
    let first := Entry.nested "core" [.leaf "io", .list "net" ["io"]]
    let second := Entry.list "log" ["libz", "log"]
    let back := [Entry.list "app" ["core", "z"]]
    let project := Project.ofStore ⟨[⟨0, "app", .executable, none, [1, 2, 5], true⟩,
      ⟨1, "log", .library, none, [5, 1], true⟩, ⟨2, "core", .library, none, [3, 4], true⟩,
      ⟨3, "io", .library, none, [], true⟩, ⟨4, "net", .library, none, [3], true⟩,
      ⟨5, "z", .library, some .library, [], false⟩]⟩
    let swapped := Project.ofStore ⟨[⟨0, "app", .executable, none, [1, 3, 2], true⟩,
      ⟨1, "log", .library, none, [2, 1], true⟩, ⟨2, "z", .library, some .library, [], false⟩,
      ⟨3, "core", .library, none, [4, 5], true⟩, ⟨4, "io", .library, none, [], true⟩,
      ⟨5, "net", .library, none, [4], true⟩]⟩
    compile (documentEvents [.bare (front ++ first :: second :: back)]) = .ok [project] ∧
      compile (documentEvents [.bare (front ++ second :: first :: back)]) = .ok [swapped] ∧
      swapped.report.cycle.isSome = project.report.cycle.isSome ∧
      ∃ σ : Equiv.Perm TargetId, ∀ id,
        swapped.targets.get? (σ id) = (project.targets.get? id).map (Target.renumber σ) := by
  intro front first second back project swapped
  have keyed : Keyed (front ++ first :: second :: back) := by
    simp [front, first, second, back, Keyed, Entry.Keyed]
  have named : Named (bodyEvents (front ++ first :: second :: back)) := by
    intro raw member
    simp only [front, first, second, back, bodyEvents, Entry.events, List.map, List.cons_append,
      List.nil_append, List.append_nil, List.mem_cons, Event.scalar.injEq, List.not_mem_nil,
      reduceCtorEq, false_or, or_false] at member
    obtain rfl | rfl | rfl | rfl | rfl | rfl | rfl | rfl | rfl | rfl | rfl | rfl := member <;>
      exact ⟨_, rfl⟩
  have independent : (cleanedNames first.events).Disjoint (cleanedNames second.events) := by
    have names : cleanedNames first.events = ["core", "io", "net", "io"] := rfl
    have namesToo : cleanedNames second.events = ["log", "z", "log"] := rfl
    rw [names, namesToo, List.disjoint_left]
    decide
  obtain ⟨_, _, σ, -, -, compiled, compiledToo, renumbered, -, cycle⟩ :=
    compile_swap keyed named independent
  have run : compile (documentEvents [.bare (front ++ first :: second :: back)]) =
    .ok [project] := rfl
  have runToo : compile (documentEvents [.bare (front ++ second :: first :: back)]) =
    .ok [swapped] := rfl
  obtain rfl := (List.cons.inj (Except.ok.inj (compiled.symm.trans run))).1
  obtain rfl := (List.cons.inj (Except.ok.inj (compiledToo.symm.trans runToo))).1
  exact ⟨run, runToo, cycle, σ, renumbered⟩

end Engine

end BuildGraph
