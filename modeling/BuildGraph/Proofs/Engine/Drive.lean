import BuildGraph.Project
import BuildGraph.Proofs.Engine.Reached

/-! Feeding a list of events, up to the first one that is refused.

A compilation feeds the events in the same way. It releases a store after every document,
which makes no difference to the events that follow.
-/

set_option autoImplicit false

namespace BuildGraph.Engine

def drive (engine : Engine) : List Event → Except EngineError Engine
  | [] => .ok engine
  | event :: rest =>
    match engine.feed event with
    | (_, .error cause) => .error cause
    | (next, .ok _) => next.drive rest

variable {engine next : Engine} {event : Event} {front back rest : List Event}
  {cause : EngineError}

theorem drive_append (engine : Engine) (front back : List Event) :
    engine.drive (front ++ back) = engine.drive front >>= fun next => next.drive back := by
  induction front generalizing engine with
  | nil => rfl
  | cons event rest ih =>
    simp only [List.cons_append, drive]
    split
    · rfl
    · exact ih _

theorem drive_append_ok (reached : engine.drive front = .ok next) :
    engine.drive (front ++ back) = next.drive back := by
  rw [drive_append, reached]
  rfl

theorem drive_of_accepted (layered : engine.Layered) (accepted : Accepted engine event next) :
    engine.drive (event :: rest) = next.drive rest := by
  simp [drive, feed_of_accepted layered accepted]

theorem drive_of_refused {left : Engine} (layered : engine.Layered)
    (refused : Refused engine event cause left) : engine.drive (event :: rest) = .error cause := by
  simp [drive, feed_of_refused layered refused]

theorem Layered.accepted_of_drive (layered : engine.Layered)
    (driven : engine.drive (event :: rest) = .ok next) :
    ∃ middle, Accepted engine event middle ∧ middle.drive rest = .ok next := by
  obtain ⟨middle, accepted⟩ | ⟨cause, left, refused⟩ := accepted_or_refused layered event
  · rw [drive_of_accepted layered accepted] at driven
    exact ⟨middle, accepted, driven⟩
  · rw [drive_of_refused layered refused] at driven
    cases driven

theorem Sound.drive (sound : engine.Sound) {events : List Event}
    (driven : engine.drive events = .ok next) : next.Sound := by
  induction events generalizing engine with
  | nil =>
    cases driven
    exact sound
  | cons event rest ih =>
    obtain ⟨middle, accepted, driven⟩ := sound.toLayered.accepted_of_drive driven
    exact ih (sound.accepted accepted) driven

theorem Reached.drive {mayRelease : Engine → Prop} (reached : Reached mayRelease engine)
    {events : List Event} (driven : engine.drive events = .ok next) : Reached mayRelease next := by
  induction events generalizing engine with
  | nil =>
    cases driven
    exact reached
  | cons event rest ih =>
    obtain ⟨middle, accepted, driven⟩ := reached.layered.accepted_of_drive driven
    have fed := reached.feed event
    rw [feed_of_accepted reached.layered accepted] at fed
    exact ih fed driven

/-! ## Compilations -/

/-- Within a document nothing is released. -/
theorem compileFrom_append (layered : engine.Layered) (noEnd : .documentEnd ∉ front)
    (driven : engine.drive front = .ok next) :
    engine.compileFrom (front ++ back) = next.compileFrom back := by
  induction front generalizing engine with
  | nil =>
    cases driven
    rfl
  | cons event rest ih =>
    obtain ⟨middle, accepted, driven⟩ := layered.accepted_of_drive driven
    have more : event.progress = .more := by
      cases event with
      | documentEnd => exact absurd List.mem_cons_self noEnd
      | _ => rfl
    rw [List.cons_append, compileFrom, feed_of_accepted layered accepted, more]
    have noEndLater : .documentEnd ∉ rest := fun member => noEnd (List.mem_cons_of_mem _ member)
    exact ih (layered.accepted accepted) noEndLater driven

/-- A new document starts from an empty store anyway, and every other event is refused. -/
theorem drive_release_cons (layered : engine.Layered) (closed : engine.phase ≠ .active)
    (event : Event) (rest : List Event) :
    engine.release.2.drive (event :: rest) = engine.drive (event :: rest) := by
  by_cases start : event = .documentStart
  · subst start
    rw [drive_of_accepted layered (.documentStart closed),
      drive_of_accepted layered.release (.documentStart closed)]
    rfl
  · cases phase : engine.phase with
    | active => exact absurd phase closed
    | idle =>
      rw [drive_of_refused layered (.noDocument phase start),
        drive_of_refused layered.release (.noDocument phase start)]
    | aborted =>
      rw [drive_of_refused layered (.aborted phase start),
        drive_of_refused layered.release (.aborted phase start)]

theorem drive_release (layered : engine.Layered) (closed : engine.phase ≠ .active)
    (events : List Event) :
    (engine.release.2.drive events).map state = (engine.drive events).map state := by
  cases events with
  | nil => rfl
  | cons event rest => rw [drive_release_cons layered closed]

/-- The number of projects of a stream with so many ends, by where it leaves the engine. -/
def tally (ends : Nat) : EngineState → Except EngineError Nat
  | .idle => .ok ends
  | _ => .error (.outOfOrder .streamEnd .neverClosed)

theorem tally_succ (ends : Nat) (left : Except EngineError EngineState) :
    (left >>= tally ends).map (· + 1) = left >>= tally (ends + 1) := by
  cases left with
  | error cause => rfl
  | ok state => cases state <;> rfl

theorem compileFrom_length (layered : engine.Layered) (events : List Event) :
    (engine.compileFrom events).map List.length =
      (engine.drive events).map state >>= tally (events.count .documentEnd) := by
  induction events generalizing engine with
  | nil =>
    simp only [compileFrom, drive, List.count_nil, Except.map, bind, Except.bind]
    cases engine.state <;> rfl
  | cons event rest ih =>
    obtain ⟨next, accepted⟩ | ⟨cause, left, refused⟩ := accepted_or_refused layered event
    · rw [drive_of_accepted layered accepted, compileFrom, feed_of_accepted layered accepted]
      have nextLayered := layered.accepted accepted
      cases event with
      | documentEnd =>
        have closed : next.phase ≠ .active := by
          cases accepted
          nofun
        -- The rest is compiled after a release, but driven without one.
        have rest_eq := ih nextLayered.release
        rw [drive_release nextLayered closed] at rest_eq
        rw [List.count_cons_self, ← tally_succ, ← rest_eq]
        show ((next.release.2.compileFrom rest).map _).map _ = _
        cases next.release.2.compileFrom rest <;> rfl
      | _ => exact ih nextLayered
    · rw [drive_of_refused layered refused, compileFrom, feed_of_refused layered refused]
      rfl

variable {events : List Event} {last : Engine}

theorem compile_length (driven : initial.drive events = .ok last) :
    (compile events).map List.length = tally (events.count .documentEnd) last.state := by
  rw [compile, compileFrom_length .initial, driven]
  rfl

theorem compile_eq_error (length : (compile events).map List.length = .error cause) :
    compile events = .error cause := by
  cases compiled : compile events with
  | error other =>
    rw [compiled] at length
    cases length
    rfl
  | ok projects =>
    rw [compiled] at length
    cases length

theorem compile_of_drive_error (driven : initial.drive events = .error cause) :
    compile events = .error cause := by
  apply compile_eq_error
  rw [compile, compileFrom_length .initial, driven]
  rfl

theorem compile_of_drive_open (driven : initial.drive events = .ok last)
    (opened : last.state ≠ .idle) :
    compile events = .error (.outOfOrder .streamEnd .neverClosed) := by
  apply compile_eq_error
  rw [compile_length driven]
  cases state : last.state with
  | idle => exact absurd state opened
  | _ => rfl

theorem compile_of_drive_idle (driven : initial.drive events = .ok last)
    (idle : last.state = .idle) :
    ∃ projects, compile events = .ok projects ∧
      projects.length = events.count .documentEnd := by
  have length := compile_length driven
  rw [idle] at length
  cases compiled : compile events with
  | error cause =>
    rw [compiled] at length
    cases length
  | ok projects =>
    rw [compiled] at length
    exact ⟨projects, rfl, Except.ok.inj length⟩

theorem drive_of_compile {projects : List Project} (compiled : compile events = .ok projects) :
    ∃ last, initial.drive events = .ok last ∧ last.state = .idle ∧
      projects.length = events.count .documentEnd := by
  cases driven : initial.drive events with
  | error cause =>
    rw [compile_of_drive_error driven] at compiled
    cases compiled
  | ok last =>
    by_cases idle : last.state = .idle
    · obtain ⟨others, same, length⟩ := compile_of_drive_idle driven idle
      rw [compiled] at same
      cases same
      exact ⟨last, rfl, idle, length⟩
    · rw [compile_of_drive_open driven idle] at compiled
      cases compiled

/-! ## Projects and the documents they come from -/

/-- What leads to the end of a document does so whether or not the store was released before: no
document ends twice. -/
theorem drive_of_drive_release {front : List Event} {last done : Engine}
    (layered : engine.Layered) (idle : engine.phase = .idle)
    (driven : engine.release.2.drive front = .ok last)
    (ended : last.feed .documentEnd = (done, .ok .documentDone)) :
    engine.drive front = .ok last := by
  cases front with
  | nil =>
    cases driven
    have refused : Refused engine.release.2 .documentEnd _ _ := .noDocument idle (by simp)
    rw [feed_of_refused layered.release refused] at ended
    cases ended
  | cons first others => rwa [drive_release_cons layered (by simp [idle])] at driven

/-- Each project holds the store at some end of a document, which is the same when nothing is
released on the way. -/
theorem exists_documentEnd_of_compileFrom {projects : List Project} {project : Project}
    (layered : engine.Layered) (compiled : engine.compileFrom events = .ok projects)
    (member : project ∈ projects) :
    ∃ front back last next, events = front ++ .documentEnd :: back ∧
      engine.drive front = .ok last ∧ last.feed .documentEnd = (next, .ok .documentDone) ∧
      project = .ofStore next.store := by
  induction events generalizing engine projects with
  | nil =>
    rw [compileFrom] at compiled
    split at compiled <;> cases compiled
    cases member
  | cons event rest ih =>
    obtain ⟨next, accepted⟩ | ⟨cause, left, refused⟩ := accepted_or_refused layered event
    · have fed := feed_of_accepted layered accepted
      have nextLayered := layered.accepted accepted
      rw [compileFrom, fed] at compiled
      cases event with
      | documentEnd =>
        simp only [Event.progress] at compiled
        cases compiledRest : next.release.2.compileFrom rest with
        | error cause =>
          rw [compiledRest] at compiled
          cases compiled
        | ok others =>
          rw [compiledRest] at compiled
          cases compiled
          obtain rfl | later := List.mem_cons.mp member
          · exact ⟨[], rest, engine, next, rfl, rfl, fed, rfl⟩
          · obtain ⟨front, back, last, done, rfl, driven, ended, same⟩ :=
              ih nextLayered.release compiledRest later
            refine ⟨.documentEnd :: front, back, last, done, rfl, ?_, ended, same⟩
            have idle : next.phase = .idle := by
              cases accepted
              rfl
            rw [drive_of_accepted layered accepted]
            exact drive_of_drive_release nextLayered idle driven ended
      | _ =>
        obtain ⟨front, back, last, done, rfl, driven, ended, same⟩ := ih nextLayered compiled member
        refine ⟨_ :: front, back, last, done, rfl, ?_, ended, same⟩
        rw [drive_of_accepted layered accepted, driven]
    · rw [compileFrom, feed_of_refused layered refused] at compiled
      cases compiled

end BuildGraph.Engine
