import BuildGraph.Manifest.Events

/-! The events of a target file can be read back.

A `Form` is what the events keep of a value: all spellings of nothing are alike, and one name is
a list of its own. The events are read from the last to the first, so that what stands at a key is
known when the key is met. Reading succeeds exactly on the events of a form.
-/

set_option autoImplicit false

namespace BuildGraph.Manifest

/-! ## Forms -/

inductive Form where
  | leaf
  | list (names : List String)
  | map (entries : List (String × Form))

mutual

/-- The form of a value; a list that holds more than scalars has none. -/
def Value.form? : Value → Option Form
  | .object entries => (entriesForm? entries).map .map
  | .array items => (items.mapM Value.leafText?).map .list
  | value => if value.isNothing then some .leaf else value.leafText?.map fun name => .list [name]

def entriesForm? : List (String × Value) → Option (List (String × Form))
  | [] => some []
  | (key, value) :: rest => do
    let form ← value.form?
    let more ← entriesForm? rest
    some ((key, form) :: more)

end

mutual

def Form.events : Form → List Event
  | .leaf => []
  | .list names => .listStart :: names.map .scalar ++ [.listEnd]
  | .map entries => .mappingStart :: formEvents entries ++ [.mappingEnd]

def formEvents : List (String × Form) → List Event
  | [] => []
  | (key, form) :: rest => .scalar key :: form.events ++ formEvents rest

end

def Form.documentEvents (form : Form) : List Event :=
  .documentStart :: form.events ++ [.documentEnd]

/-! ## Forms of values -/

theorem ok_of_bind {α β : Type} {first : Except ShapeError α} {rest : α → Except ShapeError β}
    {result : β} (read : first >>= rest = .ok result) :
    ∃ value, first = .ok value ∧ rest value = .ok result := by
  cases first with
  | error fault => cases read
  | ok value => exact ⟨value, rfl, read⟩

section

variable {path : String} {events : List Event}

theorem leafText?_of_itemName? {item : Value} {name : String} (named : itemName? item = some name) :
    item.leafText? = some name := by
  unfold itemName? at named
  split at named
  · cases named
  · exact named

theorem names_of_itemEvents {items : List Value} (read : itemEvents path items = .ok events) :
    ∃ names, items.mapM Value.leafText? = some names ∧ events = names.map .scalar := by
  induction items generalizing events with
  | nil =>
    cases read
    exact ⟨[], rfl, rfl⟩
  | cons item rest ih =>
    rw [itemEvents] at read
    split at read
    · cases read
    · next name named =>
      obtain ⟨more, readRest, done⟩ := ok_of_bind read
      obtain ⟨names, texts, rfl⟩ := ih readRest
      cases done
      refine ⟨name :: names, ?_, rfl⟩
      simp [leafText?_of_itemName? named, texts]

theorem list_of_listEvents {items : List Value} (read : listEvents path items = .ok events) :
    ∃ names, items.mapM Value.leafText? = some names ∧ events = (Form.list names).events := by
  obtain ⟨inner, readItems, done⟩ := ok_of_bind read
  obtain ⟨names, texts, rfl⟩ := names_of_itemEvents readItems
  cases done
  exact ⟨names, texts, rfl⟩

theorem form?_of_leafText? {value : Value} {name : String} (something : value.isNothing = false)
    (text : value.leafText? = some name) : value.form? = some (.list [name]) := by
  cases value with
  | null => cases something
  | array items => cases text
  | object entries => cases text
  | _ => simp [Value.form?, something, text]

theorem form_of_single {value : Value} (something : value.isNothing = false)
    (read : listEvents path [value] = .ok events) :
    ∃ form, value.form? = some form ∧ events = form.events := by
  obtain ⟨names, texts, rfl⟩ := list_of_listEvents read
  cases text : value.leafText? with
  | none => simp [text] at texts
  | some name =>
    obtain rfl : [name] = names := by simpa [text] using texts
    exact ⟨.list [name], form?_of_leafText? something text, rfl⟩

mutual

theorem form_of_valueEvents (path : String) : ∀ (value : Value) (events : List Event),
    valueEvents path value = .ok events →
      ∃ form, value.form? = some form ∧ events = form.events
  | .object entries, events, read => by
    rw [valueEvents] at read
    obtain ⟨inner, readEntries, done⟩ := ok_of_bind read
    obtain ⟨forms, shaped, rfl⟩ := forms_of_entryEvents path entries inner readEntries
    cases done
    exact ⟨.map forms, by rw [Value.form?, shaped, Option.map_some], rfl⟩
  | .array items, events, read => by
    rw [valueEvents] at read
    obtain ⟨names, texts, rfl⟩ := list_of_listEvents read
    exact ⟨.list names, by rw [Value.form?, texts, Option.map_some], rfl⟩
  | .null, events, read => by
    cases read
    exact ⟨.leaf, rfl, rfl⟩
  | .bool flag, events, read =>
    form_of_single rfl (show listEvents path [.bool flag] = _ from read)
  | .number value, events, read =>
    form_of_single rfl (show listEvents path [.number value] = _ from read)
  | .string text, events, read => by
    simp only [valueEvents] at read
    split at read
    · next nothing =>
      cases read
      exact ⟨.leaf, if_pos nothing, rfl⟩
    · next something => exact form_of_single (eq_false_of_ne_true something) read

theorem forms_of_entryEvents (path : String) :
    ∀ (entries : List (String × Value)) (events : List Event),
      entryEvents path entries = .ok events →
        ∃ forms, entriesForm? entries = some forms ∧ events = formEvents forms
  | [], events, read => by
    cases read
    exact ⟨[], rfl, rfl⟩
  | (key, value) :: rest, events, read => by
    rw [entryEvents] at read
    obtain ⟨own, readOwn, read⟩ := ok_of_bind read
    obtain ⟨more, readRest, done⟩ := ok_of_bind read
    obtain ⟨form, shaped, rfl⟩ := form_of_valueEvents _ value own readOwn
    obtain ⟨forms, shapedRest, rfl⟩ := forms_of_entryEvents path rest more readRest
    cases done
    exact ⟨(key, form) :: forms, by simp [entriesForm?, shaped, shapedRest], rfl⟩

end

theorem form_of_rootEvents {root : Value} (read : rootEvents root = .ok events) :
    ∃ form, root.form? = some form ∧ events = form.documentEvents := by
  obtain ⟨inner, readRoot, done⟩ := ok_of_bind read
  cases done
  suffices ∃ form, root.form? = some form ∧ inner = form.events by
    obtain ⟨form, shaped, rfl⟩ := this
    exact ⟨form, shaped, rfl⟩
  unfold rootBody at readRoot
  split at readRoot
  · exact form_of_valueEvents "" _ inner readRoot
  · next noObject =>
    split at readRoot
    · next nothing =>
      cases readRoot
      refine ⟨.leaf, ?_, rfl⟩
      cases root with
      | null => rfl
      | string text => exact if_pos nothing
      | _ => cases nothing
    · cases readRoot

end

/-! ## Reading -/

/-- What is known of the events from a place on. `around` holds the entries that follow in each
mapping around the place, the innermost mapping first. -/
inductive Reading where
  | blank
  | body (around : List (List (String × Form))) (form : Form)
  | list (around : List (List (String × Form))) (names : List String)
  | whole (form : Form)

namespace Reading

def step : Event → Reading → Option Reading
  | .documentEnd, .blank => some (.body [] .leaf)
  | .documentStart, .body [] form => some (.whole form)
  | .mappingEnd, .body around .leaf => some (.body ([] :: around) .leaf)
  | .mappingStart, .body (entries :: around) .leaf => some (.body around (.map entries))
  | .listEnd, .body around .leaf => some (.list around [])
  | .listStart, .list around names => some (.body around (.list names))
  -- A name in a list and a key are the same event. What follows tells them apart.
  | .scalar name, .list around names => some (.list around (name :: names))
  | .scalar key, .body (entries :: around) form =>
    some (.body (((key, form) :: entries) :: around) .leaf)
  | _, _ => none

def closing : List (List (String × Form)) → List Event
  | [] => [.documentEnd]
  | entries :: around => formEvents entries ++ .mappingEnd :: closing around

def events : Reading → List Event
  | .blank => []
  | .body around form => form.events ++ closing around
  | .list around names => names.map .scalar ++ .listEnd :: closing around
  | .whole form => form.documentEvents

end Reading

def decode (events : List Event) : Option Form :=
  match events.foldrM Reading.step .blank with
  | some (.whole form) => some form
  | _ => none

/-! ## What is read was written -/

theorem events_of_step {event : Event} {reading next : Reading}
    (stepped : reading.step event = some next) : next.events = event :: reading.events := by
  -- Each clause of `step` puts one event before what is written from the place on.
  unfold Reading.step at stepped
  split at stepped <;> cases stepped <;>
    simp [Reading.events, Reading.closing, Form.events, Form.documentEvents, formEvents]

theorem events_of_foldrM {events : List Event} {reading : Reading}
    (read : events.foldrM Reading.step .blank = some reading) : reading.events = events := by
  induction events generalizing reading with
  | nil =>
    cases read
    rfl
  | cons event rest ih =>
    rw [List.foldrM_cons] at read
    obtain ⟨later, readRest, stepped⟩ := Option.bind_eq_some_iff.mp read
    rw [events_of_step stepped, ih readRest]

/-! ## What was written is read -/

theorem foldrM_names (around : List (List (String × Form))) (names later : List String) :
    (names.map Event.scalar).foldrM Reading.step (.list around later) =
      some (.list around (names ++ later)) := by
  induction names with
  | nil => rfl
  | cons name rest ih =>
    rw [List.map_cons, List.foldrM_cons, ih]
    rfl

mutual

theorem foldrM_events (around : List (List (String × Form))) : ∀ form : Form,
    form.events.foldrM Reading.step (.body around .leaf) = some (.body around form)
  | .leaf => rfl
  | .list names => by
    have inner := foldrM_names around names []
    rw [List.append_nil] at inner
    simp [Form.events, List.foldrM_append, List.foldrM_cons, Reading.step, inner]
  | .map entries => by
    have inner := foldrM_formEvents around [] entries
    rw [List.append_nil] at inner
    simp [Form.events, List.foldrM_append, List.foldrM_cons, Reading.step, inner]

theorem foldrM_formEvents (around : List (List (String × Form))) (later : List (String × Form)) :
    ∀ entries : List (String × Form),
      (formEvents entries).foldrM Reading.step (.body (later :: around) .leaf) =
        some (.body ((entries ++ later) :: around) .leaf)
  | [] => rfl
  | (key, form) :: rest => by
    -- The entries behind this one are read first, and then they are around its body.
    have behind := foldrM_formEvents around later rest
    have own := foldrM_events ((rest ++ later) :: around) form
    simp [formEvents, List.foldrM_append, List.foldrM_cons, Reading.step, behind, own]

end

theorem decode_eq_some_iff {events : List Event} {form : Form} :
    decode events = some form ↔ events = form.documentEvents := by
  constructor
  · intro decoded
    unfold decode at decoded
    split at decoded
    · next whole read =>
      cases decoded
      exact (events_of_foldrM read).symm
    · cases decoded
  · rintro rfl
    have inner := foldrM_events [] form
    simp [decode, Form.documentEvents, List.foldrM_append, List.foldrM_cons, Reading.step, inner]

/-- Every value that has events has a form, which can be read back from the events. So two values
have the same events exactly when they have the same form. -/
theorem rootEvents_determine_form {root other : Value} {events others : List Event}
    (read : rootEvents root = .ok events) (readOther : rootEvents other = .ok others) :
    (∃ form, root.form? = some form ∧ decode events = some form) ∧
      (events = others ↔ root.form? = other.form?) := by
  obtain ⟨form, shaped, written⟩ := form_of_rootEvents read
  obtain ⟨formOther, shapedOther, writtenOther⟩ := form_of_rootEvents readOther
  have decoded : decode events = some form := decode_eq_some_iff.mpr written
  have decodedOther : decode others = some formOther := decode_eq_some_iff.mpr writtenOther
  refine ⟨⟨form, shaped, decoded⟩, ?_⟩
  rw [shaped, shapedOther]
  constructor
  · rintro rfl
    rw [← decoded, decodedOther]
  · intro same
    rw [written, writtenOther, Option.some.inj same]

/-- Nothing is spelled in two ways, one name stands alone or in a list, and a number is like its
text. An empty list, an empty mapping and nothing at all stay apart. -/
theorem rootEvents_determine_form_spellings :
    let root := Value.object [("", .null), ("app*", .string "core"),
      ("net", .array [.number (.int 42), .bool true]),
      ("docs", .object [("a", .array []), ("b", .object []), ("c", .string "~")])]
    let other := Value.object [("", .string "NULL"), ("app*", .array [.string "core"]),
      ("net", .array [.string "42", .string "true"]),
      ("docs", .object [("a", .array []), ("b", .object []), ("c", .string "")])]
    let form := Form.map [("", .leaf), ("app*", .list ["core"]), ("net", .list ["42", "true"]),
      ("docs", .map [("a", .list []), ("b", .map []), ("c", .leaf)])]
    rootEvents root = .ok form.documentEvents ∧ rootEvents other = .ok form.documentEvents ∧
      decode form.documentEvents = some form ∧ root.form? = other.form? := by
  intro root other form
  have read : rootEvents root = .ok form.documentEvents := rfl
  have readOther : rootEvents other = .ok form.documentEvents := rfl
  obtain ⟨⟨found, shaped, decoded⟩, same⟩ := rootEvents_determine_form read readOther
  have shape : root.form? = some form := rfl
  obtain rfl : form = found := Option.some.inj (shape.symm.trans shaped)
  exact ⟨read, readOther, decoded, same.mp rfl⟩

end BuildGraph.Manifest
