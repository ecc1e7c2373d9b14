import BuildGraph.Proofs.Engine.Drive

/-! A document does not depend on what its engine has done before.

Of everything that came before, a new document keeps only how deep the engine has been, and no
answer depends on that. So the compilation of two streams, one after the other, gives the
projects of both.
-/

set_option autoImplicit false

namespace BuildGraph.Engine

variable {engine next left : Engine} {event : Event} {cause : EngineError}

/-! ## What can be seen of a run -/

/-- The answer to an event and what can be seen of the engine after it, apart from how deep it
has been. -/
structure Observation where
  answer : Except EngineError Progress
  state : EngineState
  store : Store
  globals : List TargetId
  owners : List TargetId

def observe (engine : Engine) : List Event → List Observation
  | [] => []
  | event :: rest =>
    let (next, answer) := engine.feed event
    ⟨answer, next.state, next.store, next.globals, next.scopes.owners⟩ :: next.observe rest

def withDeepest (engine : Engine) (deepest : Nat) : Engine :=
  { engine with scopes := ⟨engine.scopes.owners, deepest⟩ }

theorem settled_withDeepest (engine : Engine) (deepest : Nat) :
    (engine.withDeepest deepest).settled = engine.settled.withDeepest deepest := by
  simp only [settled, withDeepest]
  split <;> rfl

theorem Layered.of_feed {answer : Except EngineError Progress} (layered : engine.Layered)
    (answered : engine.feed event = (next, answer)) : next.Layered := by
  have fed := layered.feed event
  rwa [answered] at fed

theorem Layered.withDeepest (layered : engine.Layered) (deepest : Nat) :
    (engine.withDeepest deepest).Layered :=
  ⟨layered.depth, layered.named, layered.alone⟩

/-! ## The depth makes no difference -/

theorem Settles.withDeepest (settles : engine.Settles) (deepest : Nat) :
    (engine.withDeepest deepest).Settles := settles

theorem Accepted.withDeepest (accepted : Accepted engine event next) (deepest : Nat) :
    ∃ after, Accepted (engine.withDeepest deepest) event (next.withDeepest after) := by
  have settled := settled_withDeepest engine deepest
  cases accepted with
  | documentStart closed => exact ⟨_, .documentStart closed⟩
  | documentEnd active noList flat =>
    have accepted : Accepted (engine.withDeepest deepest) .documentEnd _ :=
      .documentEnd active noList flat
    rw [settled] at accepted
    exact ⟨deepest, accepted⟩
  | bareStart active noList nothing => exact ⟨_, .bareStart active noList nothing⟩
  | keyedStart active noList held named live declared =>
    exact ⟨_, .keyedStart active noList held named live declared⟩
  | bareEnd active noList innermost settles =>
    have accepted : Accepted (engine.withDeepest deepest) .mappingEnd _ :=
      .bareEnd active noList innermost (settles.withDeepest deepest)
    rw [settled] at accepted
    exact ⟨deepest, accepted⟩
  | keyedEnd active noList innermost scope settles =>
    have accepted : Accepted (engine.withDeepest deepest) .mappingEnd _ :=
      .keyedEnd active noList innermost scope (settles.withDeepest deepest)
    rw [settled] at accepted
    exact ⟨deepest, accepted⟩
  | listStart active noList held named live declared =>
    exact ⟨_, .listStart active noList held named live declared⟩
  | listEnd active list scope => exact ⟨_, .listEnd active list scope⟩
  | key active noList named settles =>
    have accepted : Accepted (engine.withDeepest deepest) (.scalar _) _ :=
      .key active noList named (settles.withDeepest deepest)
    rw [settled] at accepted
    exact ⟨deepest, accepted⟩
  | entry active list named top live ownerHeld =>
    exact ⟨_, .entry active list named top live ownerHeld⟩

theorem Refused.withDeepest (refused : Refused engine event cause left) (deepest : Nat) :
    Refused (engine.withDeepest deepest) event cause (left.withDeepest deepest) := by
  cases refused with
  | aborted aborted other => exact .aborted aborted other
  | noDocument idle other => exact .noDocument idle other
  | documentStillOpen active => exact .documentStillOpen active
  | listStillOpen active list closing => exact .listStillOpen active list closing
  | mappingsStillOpen active noList nested => exact .mappingsStillOpen active noList nested
  | namesOnly active list => exact .namesOnly active list
  | noMapping active noList flat => exact .noMapping active noList flat
  | nestedList active list => exact .nestedList active list
  | listWithoutName active noList nothing => exact .listWithoutName active noList nothing
  | noList active noList => exact .noList active noList
  | name active refused => exact .name active refused
  | staleScope active noList held top unknown reading =>
    exact .staleScope active noList held top unknown reading
  | staleParent active list named top above unknown =>
    exact .staleParent active list named top above unknown
  | staleOwner active list named top live resolved unknown =>
    exact .staleOwner active list named top live resolved unknown

theorem Layered.feed_withDeepest (layered : engine.Layered) (deepest : Nat) (event : Event) :
    ∃ after, (engine.withDeepest deepest).feed event =
      ((engine.feed event).1.withDeepest after, (engine.feed event).2) := by
  have other := layered.withDeepest deepest
  obtain ⟨next, accepted⟩ | ⟨cause, left, refused⟩ := accepted_or_refused layered event
  · obtain ⟨after, acceptedToo⟩ := accepted.withDeepest deepest
    rw [feed_of_accepted layered accepted, feed_of_accepted other acceptedToo]
    exact ⟨after, rfl⟩
  · rw [feed_of_refused layered refused, feed_of_refused other (refused.withDeepest deepest)]
    exact ⟨deepest, rfl⟩

theorem observe_withDeepest (layered : engine.Layered) (deepest : Nat) (events : List Event) :
    (engine.withDeepest deepest).observe events = engine.observe events := by
  induction events generalizing engine deepest with
  | nil => rfl
  | cons event rest ih =>
    obtain ⟨after, same⟩ := layered.feed_withDeepest deepest event
    simp only [observe, same, ih (layered.feed event) after]
    rfl

/-- A new document starts like one of a fresh engine, but for the depth. -/
theorem feed_documentStart (layered : engine.Layered) (closed : engine.phase ≠ .active) :
    engine.feed .documentStart =
      ((initial.feed .documentStart).1.withDeepest engine.scopes.deepest,
        (initial.feed .documentStart).2) :=
  feed_of_accepted layered (.documentStart closed)

/-! ## Compilations one after the other -/

theorem compileFrom_withDeepest (layered : engine.Layered) (deepest : Nat) (events : List Event) :
    (engine.withDeepest deepest).compileFrom events = engine.compileFrom events := by
  induction events generalizing engine deepest with
  | nil => rfl
  | cons event rest ih =>
    obtain ⟨after, same⟩ := layered.feed_withDeepest deepest event
    rw [compileFrom, compileFrom, same]
    rcases answered : engine.feed event with ⟨next, cause | progress⟩
    · rfl
    · have fed := layered.of_feed answered
      cases progress with
      | more => exact ih fed after
      | documentDone => exact congrArg (Except.map _) (ih fed.release after)

theorem compileFrom_of_idle (layered : engine.Layered) (idle : engine.state = .idle)
    (events : List Event) : engine.compileFrom events = compile events := by
  have closed := Closed.not_active (.inl idle)
  cases events with
  | nil => rw [compileFrom, if_pos idle]; rfl
  | cons event rest =>
    by_cases start : event = .documentStart
    · subst start
      -- Both engines open the document in the same way, but for the depth.
      have fresh := compileFrom_withDeepest (Layered.initial.feed .documentStart)
        engine.scopes.deepest rest
      rw [compileFrom, feed_documentStart layered closed]
      exact fresh
    · cases phase : engine.phase with
      | active => exact absurd phase closed
      | aborted => simp [state, phase] at idle
      | idle =>
        rw [compile, compileFrom, compileFrom, feed_of_refused layered (.noDocument phase start),
          feed_of_refused .initial (.noDocument rfl start)]

theorem compileFrom_append_of_ok {projects : List Project} {front : List Event}
    (layered : engine.Layered) (compiled : engine.compileFrom front = .ok projects)
    (back : List Event) :
    engine.compileFrom (front ++ back) = (compile back).map (projects ++ ·) := by
  induction front generalizing engine projects with
  | nil =>
    rw [compileFrom] at compiled
    split at compiled
    · next idle =>
      cases compiled
      rw [List.nil_append, compileFrom_of_idle layered idle]
      cases compile back <;> rfl
    · cases compiled
  | cons event rest ih =>
    rw [compileFrom] at compiled
    rw [List.cons_append, compileFrom]
    rcases answered : engine.feed event with ⟨next, cause | progress⟩
    · rw [answered] at compiled
      cases compiled
    · have fed := layered.of_feed answered
      rw [answered] at compiled
      cases progress with
      | more => exact ih fed compiled
      | documentDone =>
        -- The project of this document comes before those of the rest and of the second stream.
        simp only at compiled ⊢
        cases compiledRest : next.release.2.compileFrom rest with
        | error cause =>
          rw [compiledRest] at compiled
          cases compiled
        | ok others =>
          rw [compiledRest] at compiled
          cases compiled
          rw [ih fed.release compiledRest]
          cases compile back <;> rfl

/-- Whatever the engine has been fed and whenever its store was taken, a new document and all
that follows it goes as on a fresh engine. Two streams that are compiled together give the
projects of the first and then those of the second, or why the second is refused. -/
theorem documents_independent_of_history :
    (∀ engine, Reached (fun _ => True) engine → engine.Closed → ∀ events,
      engine.observe (.documentStart :: events) = initial.observe (.documentStart :: events)) ∧
    (∀ front back projects, compile front = .ok projects →
      (∀ others, compile back = .ok others → compile (front ++ back) = .ok (projects ++ others)) ∧
      (∀ cause, compile back = .error cause → compile (front ++ back) = .error cause)) := by
  constructor
  · intro engine reached closed events
    have start := feed_documentStart reached.layered closed.not_active
    simp only [observe, start, observe_withDeepest (Layered.initial.feed .documentStart)]
    rfl
  · intro front back projects compiled
    have together := compileFrom_append_of_ok .initial compiled back
    constructor
    · intro others compiledBack
      rw [compile, together, compiledBack]
      rfl
    · intro cause refused
      rw [compile, together, refused]
      rfl

/-- The store is taken inside a list, and the document is aborted there. -/
theorem documents_independent_of_history_aborted :
    let listed := (((initial.feed .documentStart).1.feed (.scalar "app")).1.feed .listStart).1
    let aborted := (listed.release.2.feed .mappingStart).1
    let document := [Event.documentStart, .scalar "log", .mappingStart, .scalar "app", .mappingEnd,
      .documentEnd]
    aborted = { initial with
      phase := .aborted, scopes := ⟨[0], 1⟩, globals := [0], listOpen := true } ∧
    aborted.observe document = initial.observe document ∧
    compile (document ++ [.documentStart]) = .error (.outOfOrder .streamEnd .neverClosed) := by
  intro listed aborted document
  have reached : Reached (fun _ => True) aborted :=
    .feed _ (.release (.feed _ (.feed _ (.feed _ .initial))) trivial)
  obtain ⟨alike, together⟩ := documents_independent_of_history
  obtain ⟨-, refused⟩ := together document [.documentStart] _ rfl
  exact ⟨rfl, alike aborted reached (.inr rfl) _, refused _ rfl⟩

end BuildGraph.Engine
