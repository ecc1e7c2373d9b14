import BuildGraph.Proofs.Engine.Grammar

/-! Documents with names that are refused.

All that is before the first of them is accepted, for a document with other names in the same
places would be accepted as a whole. So the name itself is what the compilation fails at.
-/

set_option autoImplicit false

namespace BuildGraph

open Outline

def Event.rename (change : String → String) : Event → Event
  | .scalar name => .scalar (change name)
  | event => event

theorem Outline.exists_renamed (change : String → String) (body : List Entry) :
    ∃ renamed, bodyEvents renamed = (bodyEvents body).map (Event.rename change) := by
  induction body using Outline.induction with
  | nil => exact ⟨[], rfl⟩
  | leaf key rest ih =>
    obtain ⟨renamed, same⟩ := ih
    exact ⟨.leaf (change key) :: renamed, by simp [bodyEvents_leaf, same, Event.rename]⟩
  | list key names rest ih =>
    obtain ⟨renamed, same⟩ := ih
    refine ⟨.list (change key) (names.map change) :: renamed, ?_⟩
    simp [bodyEvents_list, same, Event.rename]
  | nested key body rest inner ih =>
    obtain ⟨renamedBody, sameBody⟩ := inner
    obtain ⟨renamed, same⟩ := ih
    refine ⟨.nested (change key) renamedBody :: renamed, ?_⟩
    simp [bodyEvents_nested, sameBody, same, Event.rename]
  | bare body rest inner ih =>
    obtain ⟨renamedBody, sameBody⟩ := inner
    obtain ⟨renamed, same⟩ := ih
    exact ⟨.bare renamedBody :: renamed, by simp [bodyEvents_bare, sameBody, same, Event.rename]⟩

def TargetName.mend (raw : String) : String :=
  match TargetName.ofString raw with
  | .ok _ => raw
  | .error _ => "x"

theorem TargetName.mend_accepted (raw : String) : ∃ name, ofString (mend raw) = .ok name := by
  unfold mend
  split
  · next name named => exact ⟨name, named⟩
  · exact ⟨_, rfl⟩

theorem TargetName.mend_of_accepted {raw : String} (named : ∃ name, ofString raw = .ok name) :
    mend raw = raw := by
  obtain ⟨name, named⟩ := named
  rw [mend, named]

namespace Engine

variable {engine : Engine} {events front rest : List Event} {body : List Entry} {raw : String}
  {cause : NameError}

theorem named_mended (events : List Event) : Named (events.map (Event.rename TargetName.mend)) := by
  intro raw member
  obtain ⟨event, -, same⟩ := List.mem_map.mp member
  cases event with
  | scalar name =>
    cases same
    exact TargetName.mend_accepted name
  | _ => cases same

theorem mended_of_named (named : Named events) :
    events.map (Event.rename TargetName.mend) = events := by
  rw [List.map_congr_left, List.map_id']
  intro event member
  cases event with
  | scalar raw => exact congrArg Event.scalar (TargetName.mend_of_accepted (named raw member))
  | _ => rfl

/-- A document is fed up to its first name that is refused. -/
theorem drive_before_name (same : documentEvents body = front ++ .scalar raw :: rest)
    (named : Named front) :
    ∃ engine, initial.drive front = .ok engine ∧ engine.Layered ∧ engine.phase = .active := by
  obtain ⟨mended, sameBody⟩ := exists_renamed TargetName.mend body
  have whole : documentEvents mended =
      front ++ .scalar (TargetName.mend raw) :: rest.map (Event.rename TargetName.mend) := by
    have mapped := congrArg (List.map (Event.rename TargetName.mend)) same
    rw [List.map_append, mended_of_named named] at mapped
    rw [documentEvents, sameBody]
    simpa [documentEvents, Event.rename] using mapped
  obtain ⟨last, driven, -⟩ :=
    accepts_document mended (sameBody ▸ named_mended _) .initial (Closed.not_active (.inl rfl))
  rw [whole, drive_append] at driven
  cases reached : initial.drive front with
  | error cause =>
    rw [reached] at driven
    cases driven
  | ok engine =>
    rw [reached] at driven
    have layered := (Sound.initial.drive reached).toLayered
    obtain ⟨next, accepted, -⟩ := layered.accepted_of_drive driven
    refine ⟨engine, rfl, layered, ?_⟩
    cases accepted with
    | key active _ _ _ => exact active
    | entry active _ _ _ _ _ => exact active

theorem compile_of_refused_name (same : documentEvents body = front ++ .scalar raw :: rest)
    (named : Named front) (refused : TargetName.ofString raw = .error cause) :
    compile (documentEvents body) = .error (.name cause) := by
  obtain ⟨engine, driven, layered, active⟩ := drive_before_name same named
  apply compile_of_drive_error
  rw [same, drive_append_ok driven, drive_of_refused layered (.name active refused)]

theorem compile_of_named (named : Named (documentEvents body)) :
    ∃ project, compile (documentEvents body) = .ok [project] := by
  obtain ⟨last, driven, -, idle⟩ :=
    accepts_document body named.tail.left .initial (Closed.not_active (.inl rfl))
  obtain ⟨projects, compiled, length⟩ := compile_of_drive_idle driven idle
  have single : (documentEvents body).count .documentEnd = 1 := by
    simpa [streamEvents] using count_documentEnd [body]
  rw [single] at length
  obtain ⟨project, rfl⟩ := List.length_eq_one_iff.mp length
  exact ⟨project, compiled⟩

end Engine

end BuildGraph
