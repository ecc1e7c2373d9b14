import BuildGraph.Proofs.Engine.Names
import BuildGraph.Proofs.Manifest.Form

/-! The events of a target file are those of one document.

Every value that has events has those of an outline, so the engine takes them in order. What
can still be wrong is a name, and the first such name is what the compilation fails at.
-/

set_option autoImplicit false

namespace BuildGraph.Manifest

open Engine Outline

variable {events : List Event}

/-! ## Forms as outlines -/

mutual

theorem exists_entry (key : String) : ∀ form : Form,
    ∃ entry : Entry, .scalar key :: form.events = entry.events
  | .leaf => ⟨.leaf key, rfl⟩
  | .list names => ⟨.list key names, rfl⟩
  | .map entries => by
    obtain ⟨body, same⟩ := exists_body entries
    exact ⟨.nested key body, by rw [Form.events, same, Entry.events]; rfl⟩

theorem exists_body : ∀ entries : List (String × Form),
    ∃ body : List Entry, formEvents entries = bodyEvents body
  | [] => ⟨[], rfl⟩
  | (key, form) :: rest => by
    obtain ⟨entry, own⟩ := exists_entry key form
    obtain ⟨body, behind⟩ := exists_body rest
    exact ⟨entry :: body, by rw [formEvents, own, behind, bodyEvents]⟩

end

theorem exists_document {root : Value} (read : rootEvents root = .ok events) :
    ∃ body, events = documentEvents body := by
  obtain ⟨inner, readRoot, done⟩ := ok_of_bind read
  cases done
  unfold rootBody at readRoot
  split at readRoot
  · next entries =>
    rw [valueEvents] at readRoot
    obtain ⟨inside, readEntries, done⟩ := ok_of_bind readRoot
    obtain ⟨forms, -, rfl⟩ := forms_of_entryEvents "" entries inside readEntries
    obtain ⟨body, same⟩ := exists_body forms
    cases done
    -- The outermost mapping stands under no key.
    refine ⟨[.bare body], ?_⟩
    simp [documentEvents, bodyEvents, Entry.events, same]
  · split at readRoot
    · cases readRoot
      exact ⟨[], rfl⟩
    · cases readRoot

/-! ## Names -/

def Nameable (events : List Event) : Prop :=
  ∀ raw, .scalar raw ∈ events → raw ≠ "" ∧ raw ≠ "*"

def FirstRefused (events : List Event) (raw : String) (cause : NameError) : Prop :=
  ∃ front rest, events = front ++ .scalar raw :: rest ∧ Nameable front ∧
    (raw = "" ∨ raw = "*") ∧ TargetName.ofString raw = .error cause

theorem nameable_cons {event : Event} {rest : List Event} :
    Nameable (event :: rest) ↔
      (∀ raw, event = .scalar raw → raw ≠ "" ∧ raw ≠ "*") ∧ Nameable rest := by
  constructor
  · intro fine
    refine ⟨fun raw same => fine raw ?_, fun raw member => fine raw (List.mem_cons_of_mem _ member)⟩
    rw [same]
    exact List.mem_cons_self
  · rintro ⟨first, fine⟩ raw member
    obtain same | later := List.mem_cons.mp member
    · exact first raw same.symm
    · exact fine raw later

theorem nameable_or_refused (events : List Event) :
    Nameable events ∨ ∃ raw cause, FirstRefused events raw cause := by
  induction events with
  | nil => exact .inl nofun
  | cons event rest ih =>
    by_cases first : ∀ raw, event = .scalar raw → raw ≠ "" ∧ raw ≠ "*"
    · obtain fine | ⟨raw, cause, front, after, rfl, fine, refused⟩ := ih
      · exact .inl (nameable_cons.mpr ⟨first, fine⟩)
      · exact .inr ⟨raw, cause, event :: front, after, rfl, nameable_cons.mpr ⟨first, fine⟩,
          refused⟩
    · obtain ⟨raw, unfit⟩ := Classical.not_forall.mp first
      obtain ⟨rfl, refusable⟩ := Classical.not_imp.mp unfit
      have bad : raw = "" ∨ raw = "*" := (Classical.not_and_iff_not_or_not.mp refusable).imp
        Classical.not_not.mp Classical.not_not.mp
      have refused : ∃ cause, TargetName.ofString raw = .error cause := by
        obtain rfl | rfl := bad
        · exact ⟨.empty, rfl⟩
        · exact ⟨.onlyMark "*", rfl⟩
      obtain ⟨cause, refused⟩ := refused
      exact .inr ⟨raw, cause, [], rest, rfl, nofun, bad, refused⟩

/-- The events of a value are compiled into one project, unless a name is empty or a lone star.
Then the first such name is what the compilation fails at, and nothing else is. -/
theorem compile_rootEvents {root : Value} (read : rootEvents root = .ok events) :
    (Nameable events → ∃ project, compile events = .ok [project]) ∧
    (∀ raw cause, FirstRefused events raw cause → compile events = .error (.name cause)) ∧
    (Nameable events ∨ ∃ raw cause, FirstRefused events raw cause) := by
  obtain ⟨body, rfl⟩ := exists_document read
  refine ⟨fun fine => compile_of_named ((named_iff _).mpr fine), ?_, nameable_or_refused _⟩
  rintro raw cause ⟨front, rest, same, fine, -, refused⟩
  exact compile_of_refused_name same ((named_iff _).mpr fine) refused

/-- A lone star in a list is refused, and the empty key behind it is not reached. -/
theorem compile_rootEvents_star :
    let root := Value.object [("app*", .object [("core", .null), ("net", .string "core")]),
      ("tool", .array [.bool true, .string "*"]), ("", .object [])]
    ∃ events, rootEvents root = .ok events ∧
      compile events = .error (.name (.onlyMark "*")) := by
  intro root
  let front := [Event.documentStart, .mappingStart, .scalar "app*", .mappingStart, .scalar "core",
    .scalar "net", .listStart, .scalar "core", .listEnd, .mappingEnd, .scalar "tool", .listStart,
    .scalar "true"]
  have read : rootEvents root = .ok (front ++ .scalar "*" ::
    [.listEnd, .scalar "", .mappingStart, .mappingEnd, .mappingEnd, .documentEnd]) := rfl
  have fine : Nameable front := by
    intro raw member
    simp only [front, List.mem_cons, Event.scalar.injEq, reduceCtorEq, false_or, List.not_mem_nil,
      or_false] at member
    obtain rfl | rfl | rfl | rfl | rfl | rfl := member <;> decide
  exact ⟨_, read, (compile_rootEvents read).2.1 "*" _ ⟨front, _, rfl, fine, .inr rfl, rfl⟩⟩

end BuildGraph.Manifest
