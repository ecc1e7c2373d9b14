import BuildGraph.Proofs.Engine.Refinement

/-! The engine accepts the streams of its grammar, and refuses the first event that no stream
goes on with.

`Remains` is what the grammar asks of the events that are still to come, by where the engine
stands. An accepted event moves it on, so a run that ends between documents has fed a stream.
Every other run can be brought to such an end by closing what is open.
-/

set_option autoImplicit false

namespace BuildGraph.Engine

open Outline

variable {engine next last : Engine} {event : Event} {events rest : List Event}

/-! ## From streams to runs -/

theorem accepts_document (body : List Entry) (named : Named (bodyEvents body))
    (layered : engine.Layered) (closed : engine.phase ≠ .active) :
    ∃ last, engine.drive (documentEvents body) = .ok last ∧ last.Layered ∧ last.state = .idle := by
  obtain ⟨joined, separated, same⟩ := exists_separated body
  rw [← same] at named
  obtain ⟨draft, opened, filled, deepest, -, starts, -, driven, filledSound, ends⟩ :=
    drive_document separated named closed
  refine ⟨_, ?_, filledSound.toLayered.accepted ends, rfl⟩
  rw [documentEvents, ← same, List.cons_append, drive_of_accepted layered starts,
    drive_append_ok driven, drive_of_accepted filledSound.toLayered ends]
  rfl

theorem accepts_stream (documents : List (List Entry)) (named : Named (streamEvents documents))
    (layered : engine.Layered) (idle : engine.state = .idle) :
    ∃ last, engine.drive (streamEvents documents) = .ok last ∧ last.state = .idle := by
  induction documents generalizing engine with
  | nil => exact ⟨engine, rfl, idle⟩
  | cons body documents ih =>
    have closed := Closed.not_active (.inl idle)
    obtain ⟨middle, driven, middleLayered, middleIdle⟩ :=
      accepts_document body named.left.tail.left layered closed
    rw [streamEvents, List.flatMap_cons, drive_append_ok driven]
    exact ih named.right middleLayered middleIdle

/-! ## From runs to streams -/

/-- What may follow inside of so many mappings: the rest of the body, the end of what it is
the body of, and what may follow there. -/
def Continues : Nat → List Event → Prop
  | 0, events => ∃ body documents,
    events = bodyEvents body ++ .documentEnd :: streamEvents documents
  | depth + 1, events => ∃ body after,
    events = bodyEvents body ++ .mappingEnd :: after ∧ Continues depth after

theorem Continues.prepend {depth : Nat} (continues : Continues depth rest) (entry : Entry) :
    Continues depth (entry.events ++ rest) := by
  cases depth with
  | zero =>
    obtain ⟨body, documents, rfl⟩ := continues
    exact ⟨entry :: body, documents, by rw [bodyEvents, List.append_assoc]⟩
  | succ depth =>
    obtain ⟨body, after, rfl, continues⟩ := continues
    exact ⟨entry :: body, after, by rw [bodyEvents, List.append_assoc], continues⟩

/-- A mapping without a key may stand anywhere in a body, also after a key. -/
theorem Continues.mappingStart {depth : Nat} (continues : Continues (depth + 1) rest) :
    Continues depth (.mappingStart :: rest) := by
  obtain ⟨body, after, rfl, continues⟩ := continues
  simpa [Entry.events] using continues.prepend (.bare body)

theorem Continues.mappingEnd {mapping : Mapping} {outer : List Mapping}
    (continues : Continues outer.length rest) (innermost : engine.mappings = mapping :: outer) :
    Continues engine.mappings.length (.mappingEnd :: rest) := by
  rw [innermost]
  exact ⟨[], rest, rfl, continues⟩

inductive Remains (engine : Engine) : List Event → Prop where
  | stream (documents : List (List Entry)) (closed : engine.phase ≠ .active) :
      Remains engine (streamEvents documents)
  | body {rest : List Event} (active : engine.phase = .active) (noList : engine.listOpen = false)
      (continues : Continues engine.mappings.length rest) : Remains engine rest
  | list {rest : List Event} (names : List String) (active : engine.phase = .active)
      (held : engine.held ≠ none) (continues : Continues engine.mappings.length rest) :
      Remains engine (.listStart :: (names.map .scalar ++ .listEnd :: rest))
  | names {rest : List Event} (names : List String) (active : engine.phase = .active)
      (list : engine.listOpen = true) (continues : Continues engine.mappings.length rest) :
      Remains engine (names.map .scalar ++ .listEnd :: rest)

/-- Outside of lists and right after anything but a key, the grammar asks for the rest of a
body. -/
theorem Remains.continues (remains : Remains engine rest) (active : engine.phase = .active)
    (noList : engine.listOpen = false) (nothing : engine.held = none) :
    Continues engine.mappings.length rest := by
  cases remains with
  | stream documents closed => exact absurd active closed
  | body _ _ continues => exact continues
  | list names _ held _ => exact absurd nothing held
  | names names _ list _ =>
    rw [noList] at list
    cases list

theorem Remains.listed (remains : Remains engine rest) (active : engine.phase = .active)
    (list : engine.listOpen = true) (nothing : engine.held = none) :
    ∃ names after, rest = List.map .scalar names ++ .listEnd :: after ∧
      Continues engine.mappings.length after := by
  cases remains with
  | stream documents closed => exact absurd active closed
  | body _ noList _ =>
    rw [list] at noList
    cases noList
  | list names _ held _ => exact absurd nothing held
  | names names _ _ continues => exact ⟨names, _, rfl, continues⟩

theorem Remains.step (layered : engine.Layered) (accepted : Accepted engine event next)
    (remains : Remains next rest) : Remains engine (event :: rest) := by
  have taken := settled_held layered.named
  cases accepted with
  | documentStart closed =>
    -- What remains of the new document is all of its body.
    obtain ⟨body, documents, rfl⟩ := remains.continues rfl rfl rfl
    have whole := Remains.stream (body :: documents) closed
    simpa [streamEvents, documentEvents] using whole
  | documentEnd active noList flat =>
    cases remains with
    | stream documents closed =>
      refine .body active noList ?_
      rw [flat]
      exact ⟨[], documents, rfl⟩
    | _ => contradiction
  | bareStart active noList nothing =>
    exact .body active noList (remains.continues active noList nothing).mappingStart
  | keyedStart active noList held named live declared =>
    -- The grammar also derives the key alone, and then the mapping without a key.
    exact .body active noList (remains.continues active noList rfl).mappingStart
  | bareEnd active noList innermost settles =>
    have continues := remains.continues ((settled_phase engine).trans active)
      ((settled_listOpen engine).trans noList) taken
    exact .body active noList (continues.mappingEnd innermost)
  | keyedEnd active noList innermost scope settles =>
    have continues := remains.continues ((settled_phase engine).trans active)
      ((settled_listOpen engine).trans noList) taken
    exact .body active noList (continues.mappingEnd innermost)
  | listStart active noList held named live declared =>
    obtain ⟨names, after, rfl, continues⟩ := remains.listed active rfl rfl
    exact .list names active (by simp [held]) continues
  | listEnd active list scope =>
    have continues := remains.continues active rfl (layered.alone list)
    exact .names [] active list continues
  | @key raw _ active noList named settles =>
    have same := settled_mappings engine
    -- The key stays alone or has a list. If it has a mapping, that is what the body goes on with.
    cases remains with
    | stream documents closed => exact absurd ((settled_phase engine).trans active) closed
    | body _ _ continues =>
      have whole := Continues.prepend continues (.leaf raw)
      rw [same] at whole
      exact .body active noList whole
    | list names _ _ continues =>
      have whole := Continues.prepend continues (.list raw names)
      rw [same] at whole
      exact .body active noList (by simpa [Entry.events] using whole)
    | names names _ list _ =>
      rw [settled_listOpen, noList] at list
      cases list
  | @entry raw _ _ active list named top live ownerHeld =>
    obtain ⟨names, after, rfl, continues⟩ := remains.listed active list (layered.alone list)
    exact .names (raw :: names) active list continues

theorem Layered.remains (layered : engine.Layered) (driven : engine.drive events = .ok last)
    (idle : last.state = .idle) : Remains engine events := by
  induction events generalizing engine with
  | nil =>
    cases driven
    exact .stream [] (Closed.not_active (.inl idle))
  | cons event rest ih =>
    obtain ⟨next, accepted, driven⟩ := layered.accepted_of_drive driven
    exact (ih (layered.accepted accepted) driven).step layered accepted

theorem Layered.named_of_drive (layered : engine.Layered)
    (driven : engine.drive events = .ok last) : Named events := by
  induction events generalizing engine with
  | nil => nofun
  | cons event rest ih =>
    obtain ⟨next, accepted, driven⟩ := layered.accepted_of_drive driven
    intro raw member
    obtain rfl | later := List.mem_cons.mp member
    · cases accepted with
      | key _ _ named _ => exact ⟨_, named⟩
      | entry _ _ named _ _ _ => exact ⟨_, named⟩
    · exact ih (layered.accepted accepted) driven raw later

theorem isStream_of_drive (driven : initial.drive events = .ok last) (idle : last.state = .idle) :
    IsStream events := by
  refine ⟨?_, (named_iff events).mp (Layered.initial.named_of_drive driven)⟩
  cases Layered.initial.remains driven idle with
  | stream documents _ => exact ⟨documents, rfl⟩
  | _ => contradiction

/-! ## Closing what is open -/

theorem Sound.mappingEnd {mapping : Mapping} {outer : List Mapping} (sound : engine.Sound)
    (active : engine.phase = .active) (noList : engine.listOpen = false)
    (innermost : engine.mappings = mapping :: outer) :
    ∃ next, Accepted engine .mappingEnd next ∧ next.phase = .active ∧ next.listOpen = false ∧
      next.mappings = outer := by
  have stillActive := (settled_phase engine).trans active
  have stillNoList := (settled_listOpen engine).trans noList
  cases mapping with
  | bare =>
    exact ⟨_, .bareEnd active noList innermost (sound.settles active), stillActive,
      stillNoList, rfl⟩
  | keyed =>
    obtain ⟨owner, owners, scope⟩ := sound.toLayered.owner_of_depth (by simp [innermost, noList])
    exact ⟨_, .keyedEnd active noList innermost scope (sound.settles active), stillActive,
      stillNoList, rfl⟩

theorem Sound.closes_body (sound : engine.Sound) (active : engine.phase = .active)
    (noList : engine.listOpen = false) :
    ∃ rest last, engine.drive rest = .ok last ∧ last.state = .idle := by
  induction mappings : engine.mappings generalizing engine with
  | nil =>
    exact ⟨[.documentEnd], _,
      drive_of_accepted sound.toLayered (.documentEnd active noList mappings), rfl⟩
  | cons mapping outer ih =>
    obtain ⟨next, accepted, active, noList, left⟩ := sound.mappingEnd active noList mappings
    obtain ⟨rest, last, driven, idle⟩ := ih (sound.accepted accepted) active noList left
    exact ⟨.mappingEnd :: rest, last, (drive_of_accepted sound.toLayered accepted).trans driven,
      idle⟩

theorem Sound.closes (sound : engine.Sound) :
    ∃ rest last, engine.drive rest = .ok last ∧ last.state = .idle := by
  cases phase : engine.phase with
  | idle => exact ⟨[], engine, rfl, by rw [state, phase]⟩
  | aborted =>
    have closed : engine.phase ≠ .active := by simp [phase]
    have named : Named (bodyEvents []) := fun raw member => absurd member List.not_mem_nil
    obtain ⟨last, driven, -, idle⟩ := accepts_document [] named sound.toLayered closed
    exact ⟨_, last, driven, idle⟩
  | active =>
    cases list : engine.listOpen with
    | false => exact sound.closes_body phase list
    | true =>
      obtain ⟨owner, owners, scope⟩ := sound.toLayered.owner_of_depth (by simp [list])
      have accepted := Accepted.listEnd phase list scope
      obtain ⟨rest, last, driven, idle⟩ := (sound.accepted accepted).closes_body phase rfl
      exact ⟨.listEnd :: rest, last, (drive_of_accepted sound.toLayered accepted).trans driven,
        idle⟩

/-! ## The grammar -/

theorem accepts_iff_viable (events : List Event) :
    (∃ engine, initial.drive events = .ok engine) ↔ Viable events := by
  constructor
  · rintro ⟨engine, driven⟩
    obtain ⟨rest, last, closed, idle⟩ := (Sound.initial.drive driven).closes
    exact ⟨rest, isStream_of_drive ((drive_append_ok driven).trans closed) idle⟩
  · rintro ⟨rest, ⟨documents, same⟩, names⟩
    have named := (named_iff _).mpr names
    rw [same] at named
    obtain ⟨last, driven, -⟩ := accepts_stream documents named .initial rfl
    rw [← same, drive_append] at driven
    cases front : initial.drive events with
    | ok engine => exact ⟨engine, rfl⟩
    | error cause =>
      rw [front] at driven
      cases driven

theorem isStream_iff (events : List Event) :
    IsStream events ↔ ∃ last, initial.drive events = .ok last ∧ last.state = .idle := by
  constructor
  · rintro ⟨⟨documents, rfl⟩, names⟩
    exact accepts_stream documents ((named_iff _).mpr names) .initial rfl
  · rintro ⟨last, driven, idle⟩
    exact isStream_of_drive driven idle

theorem refuses_iff_not_viable (driven : initial.drive events = .ok engine) (event : Event) :
    (∃ next cause, engine.feed event = (next, .error cause)) ↔ ¬ Viable (events ++ [event]) := by
  rw [← accepts_iff_viable, drive_append_ok driven]
  rcases answered : engine.feed event with ⟨next, cause | progress⟩ <;> simp [drive, answered]

/-- The streams are what is compiled, into one project for each document. An event is refused
when no stream begins with it and those before it, and not later; what can still become a
stream is refused at its end. -/
theorem compile_accepts_streams (events : List Event) :
    ((∃ projects, compile events = .ok projects) ↔ IsStream events) ∧
    (∀ documents projects, events = streamEvents documents → compile events = .ok projects →
      projects.length = documents.length) ∧
    ((∃ engine, initial.drive events = .ok engine) ↔ Viable events) ∧
    (∀ engine event, initial.drive events = .ok engine →
      ((∃ next cause, engine.feed event = (next, .error cause)) ↔ ¬ Viable (events ++ [event]))) ∧
    (∀ cause, initial.drive events = .error cause → compile events = .error cause) ∧
    (∀ engine, initial.drive events = .ok engine → ¬ IsStream events →
      compile events = .error (.outOfOrder .streamEnd .neverClosed)) := by
  refine ⟨⟨?_, ?_⟩, ?_, accepts_iff_viable events, ?_, fun _ => compile_of_drive_error, ?_⟩
  · rintro ⟨projects, compiled⟩
    obtain ⟨last, driven, idle, -⟩ := drive_of_compile compiled
    exact isStream_of_drive driven idle
  · intro stream
    obtain ⟨last, driven, idle⟩ := (isStream_iff events).mp stream
    obtain ⟨projects, compiled, -⟩ := compile_of_drive_idle driven idle
    exact ⟨projects, compiled⟩
  · rintro documents projects rfl compiled
    obtain ⟨last, -, -, length⟩ := drive_of_compile compiled
    rw [length, count_documentEnd]
  · intro engine event driven
    exact refuses_iff_not_viable driven event
  · intro engine driven incomplete
    exact compile_of_drive_open driven fun idle => incomplete (isStream_of_drive driven idle)

end BuildGraph.Engine
