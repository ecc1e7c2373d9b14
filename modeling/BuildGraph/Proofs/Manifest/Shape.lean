import BuildGraph.Manifest.Events

/-! Where a target file does not have the shape of one.

A root that is neither an object nor nothing has no targets. Below an object, the first array
with an item that is no name is what is reported, under the keys that lead to it.
-/

set_option autoImplicit false

namespace BuildGraph.Manifest

/-! ## Arrays at keys -/

def Value.isUnfit : Value → Bool
  | .array _ => true
  | .object _ => true
  | item => item.isNothing

structure ListAt where
  keys : List String
  items : List Value

namespace ListAt

def below (key : String) (list : ListAt) : ListAt :=
  ⟨key :: list.keys, list.items⟩

def isUnfit (list : ListAt) : Bool := list.items.any Value.isUnfit

/-- The keys joined by points, without the empty ones at the start. -/
def path (list : ListAt) : String :=
  ".".intercalate (list.keys.dropWhile String.isEmpty)

end ListAt

mutual

def Value.lists : Value → List ListAt
  | .object entries => entriesLists entries
  | .array items => [⟨[], items⟩]
  | _ => []

/-- What an entry holds comes before what the entries behind it hold. -/
def entriesLists : List (String × Value) → List ListAt
  | [] => []
  | (key, value) :: rest => value.lists.map (ListAt.below key) ++ entriesLists rest

end

/-- A value stands inside another one, under these keys, with objects alone around it. -/
inductive Value.Reaches : Value → List String → Value → Prop where
  | self (value : Value) : Reaches value [] value
  | through {entries : List (String × Value)} {key : String} {value inner : Value}
      {keys : List String} (entry : (key, value) ∈ entries) (reached : Reaches value keys inner) :
      Reaches (.object entries) (key :: keys) inner

theorem mem_entriesLists_iff {list : ListAt} {entries : List (String × Value)} :
    list ∈ entriesLists entries ↔
      ∃ key value, (key, value) ∈ entries ∧ ∃ inner ∈ value.lists, inner.below key = list := by
  induction entries with
  | nil => simp [entriesLists]
  | cons entry rest ih =>
    obtain ⟨key, value⟩ := entry
    rw [entriesLists, List.mem_append, List.mem_map, ih]
    constructor
    · rintro (own | ⟨other, later, entry, found⟩)
      · exact ⟨key, value, List.mem_cons_self, own⟩
      · exact ⟨other, later, List.mem_cons_of_mem _ entry, found⟩
    · rintro ⟨other, later, entry, found⟩
      rcases List.mem_cons.mp entry with same | entry
      · cases same
        exact .inl found
      · exact .inr ⟨other, later, entry, found⟩

theorem reaches_of_mem_lists : ∀ (value : Value) (list : ListAt), list ∈ value.lists →
    value.Reaches list.keys (.array list.items)
  | .object entries, list, member => by
    obtain ⟨key, value, entry, inner, below, rfl⟩ := mem_entriesLists_iff.mp member
    exact .through entry (reaches_of_mem_lists value inner below)
  | .array items, list, member => by
    obtain rfl := List.mem_singleton.mp member
    exact .self _
  | .null, list, member => nomatch member
  | .bool flag, list, member => nomatch member
  | .number value, list, member => nomatch member
  | .string text, list, member => nomatch member
termination_by value => value
decreasing_by
  -- The value of an entry is known as a member only, so its size is compared.
  have smaller := List.sizeOf_lt_of_mem entry
  simp at smaller ⊢
  omega

theorem mem_lists_of_reaches {value inner : Value} {keys : List String} {items : List Value}
    (reached : value.Reaches keys inner) (array : inner = .array items) :
    ⟨keys, items⟩ ∈ value.lists := by
  induction reached with
  | self value =>
    subst array
    exact List.mem_singleton_self _
  | through entry reached ih => exact mem_entriesLists_iff.mpr ⟨_, _, entry, _, ih array, rfl⟩

/-! ## Paths -/

theorem foldl_childPath_of_ne {path : String} (known : path ≠ "") (keys : List String) :
    keys.foldl childPath path = ".".intercalate (path :: keys) := by
  induction keys generalizing path with
  | nil => rfl
  | cons key rest ih =>
    have longer : childPath path key = path ++ "." ++ key := by
      simp [childPath, known]
    have unfinished : path ++ "." ++ key ≠ "" := by simp [known]
    rw [List.foldl_cons, longer, ih unfinished]
    rfl

theorem foldl_childPath (keys : List String) :
    keys.foldl childPath "" = ".".intercalate (keys.dropWhile String.isEmpty) := by
  induction keys with
  | nil => rfl
  | cons key rest ih =>
    have first : childPath "" key = key := rfl
    rw [List.foldl_cons, first]
    by_cases empty : key = ""
    · subst empty
      exact ih
    · have kept : key.isEmpty = false := by simp [empty]
      rw [foldl_childPath_of_ne empty, List.dropWhile_cons_of_neg (by simp [kept])]

/-! ## The first fault -/

/-- A result fails exactly at the first array with an item that is no name. The keys are those
below `path`. -/
def FailsAtFirst (path : String) (lists : List ListAt) (result : Except ShapeError (List Event)) :
    Prop :=
  ∀ error, result = .error error ↔ ∃ list, lists.find? ListAt.isUnfit = some list ∧
    error = ⟨list.keys.foldl childPath path, .listItem⟩

section

variable {path : String} {lists : List ListAt} {first : Except ShapeError (List Event)}
  {rest : List Event → Except ShapeError (List Event)}

theorem FailsAtFirst.ok (path : String) (events : List Event) :
    FailsAtFirst path [] (.ok events) := by
  intro error
  exact iff_of_false nofun (fun ⟨_, found, _⟩ => nomatch found)

/-- Of two steps, the second one can only fail when the first one has not. -/
theorem FailsAtFirst.bind {later : List ListAt} (fails : FailsAtFirst path lists first)
    (failsLater : ∀ events, FailsAtFirst path later (rest events)) :
    FailsAtFirst path (lists ++ later) (first >>= rest) := by
  intro error
  rw [List.find?_append]
  cases first with
  | error fault =>
    -- What the second step would report is behind what the first one has found.
    obtain ⟨list, found, rfl⟩ := (fails fault).mp rfl
    rw [found, Option.some_or]
    constructor
    · rintro ⟨⟩
      exact ⟨list, rfl, rfl⟩
    · rintro ⟨other, same, rfl⟩
      cases same
      rfl
  | ok events =>
    have clear : lists.find? ListAt.isUnfit = none := by
      cases found : lists.find? ListAt.isUnfit with
      | none => rfl
      | some list => cases (fails _).mpr ⟨list, found, rfl⟩
    rw [clear, Option.none_or]
    exact failsLater events error

theorem FailsAtFirst.below {key : String} (fails : FailsAtFirst (childPath path key) lists first) :
    FailsAtFirst path (lists.map (ListAt.below key)) first := by
  intro error
  have same : ListAt.isUnfit ∘ ListAt.below key = ListAt.isUnfit := rfl
  rw [fails error, List.find?_map, same]
  constructor
  · rintro ⟨list, found, rfl⟩
    exact ⟨list.below key, by rw [found, Option.map_some], rfl⟩
  · rintro ⟨list, found, rfl⟩
    obtain ⟨inner, first, rfl⟩ := Option.map_eq_some_iff.mp found
    exact ⟨inner, first, rfl⟩

end

theorem isNone_itemName? (item : Value) : (itemName? item).isNone = item.isUnfit := by
  cases item with
  | string text =>
    unfold itemName? Value.isUnfit
    split <;> simp_all [Value.leafText?]
  | _ => rfl

theorem itemEvents_eq_error_iff (path : String) (items : List Value) (error : ShapeError) :
    itemEvents path items = .error error ↔
      items.any Value.isUnfit = true ∧ error = ⟨path, .listItem⟩ := by
  induction items with
  | nil => exact iff_of_false nofun (fun ⟨unfit, _⟩ => nomatch unfit)
  | cons item rest ih =>
    rw [itemEvents, List.any_cons, ← isNone_itemName?]
    cases itemName? item with
    | none => simp [eq_comm]
    | some name =>
      rw [Option.isNone_some, Bool.false_or, ← ih]
      cases itemEvents path rest <;> simp [bind, Except.bind]

theorem listEvents_failsAtFirst (path : String) (items : List Value) :
    FailsAtFirst path [⟨[], items⟩] (listEvents path items) := by
  have fails : FailsAtFirst path [⟨[], items⟩] (itemEvents path items) := by
    intro error
    rw [itemEvents_eq_error_iff]
    cases unfit : items.any Value.isUnfit <;> simp [List.find?, ListAt.isUnfit, unfit]
  exact fails.bind fun _ => .ok path _

theorem single_failsAtFirst {value : Value} (path : String) (fit : value.isUnfit = false) :
    FailsAtFirst path [] (listEvents path [value]) := by
  have fails := listEvents_failsAtFirst path [value]
  simpa [FailsAtFirst, ListAt.isUnfit, fit] using fails

mutual

theorem valueEvents_failsAtFirst (path : String) : ∀ value : Value,
    FailsAtFirst path value.lists (valueEvents path value)
  | .object entries => by
    have inner := (entryEvents_failsAtFirst path entries).bind fun events =>
      .ok path (.mappingStart :: events ++ [.mappingEnd])
    rw [List.append_nil] at inner
    rw [valueEvents]
    exact inner
  | .array items => by
    rw [valueEvents]
    exact listEvents_failsAtFirst path items
  | .null => .ok path []
  | .bool flag => single_failsAtFirst path rfl
  | .number value => single_failsAtFirst path rfl
  | .string text => by
    simp only [valueEvents]
    split
    · exact .ok path []
    · next something => exact single_failsAtFirst path (eq_false_of_ne_true something)

theorem entryEvents_failsAtFirst (path : String) : ∀ entries : List (String × Value),
    FailsAtFirst path (entriesLists entries) (entryEvents path entries)
  | [] => .ok path []
  | (key, value) :: rest => by
    have own := (valueEvents_failsAtFirst (childPath path key) value).below
    have behind := entryEvents_failsAtFirst path rest
    -- Nothing can fail any more once both parts are read.
    rw [entryEvents, entriesLists, ← List.append_nil (entriesLists rest)]
    exact own.bind fun _ => behind.bind fun _ => .ok path _

end

/-! ## Roots -/

def Value.IsObject (value : Value) : Prop :=
  ∃ entries, value = .object entries

section

variable {root : Value}

theorem rootEvents_of_object (object : root.IsObject) (error : ShapeError) :
    rootEvents root = .error error ↔
      ∃ list, root.lists.find? ListAt.isUnfit = some list ∧ error = ⟨list.path, .listItem⟩ := by
  obtain ⟨entries, rfl⟩ := object
  have fails := (valueEvents_failsAtFirst "" (.object entries)).bind fun events =>
    .ok "" (.documentStart :: events ++ [.documentEnd])
  rw [List.append_nil] at fails
  have whole := fails error
  simp only [foldl_childPath] at whole
  exact whole

theorem rootEvents_of_not_object (other : ¬ root.IsObject) (error : ShapeError) :
    rootEvents root = .error error ↔ root.isNothing = false ∧ error = ⟨"", .root⟩ := by
  have body : rootBody root = if root.isNothing then .ok [] else .error ⟨"", .root⟩ := by
    unfold rootBody
    split
    · next entries => exact absurd ⟨entries, rfl⟩ other
    · rfl
  rw [rootEvents, body]
  cases root.isNothing with
  | true => exact iff_of_false nofun (fun ⟨something, _⟩ => nomatch something)
  | false =>
    constructor
    · rintro ⟨⟩
      exact ⟨rfl, rfl⟩
    · rintro ⟨-, rfl⟩
      rfl

theorem Value.Reaches.isObject {keys : List String} {inner : Value}
    (reached : root.Reaches keys inner) (below : keys ≠ []) : root.IsObject := by
  cases reached with
  | self value => exact absurd rfl below
  | through entry reached => exact ⟨_, rfl⟩

/-- Below an object every array stands at some key. -/
theorem Value.IsObject.ne_nil {keys : List String} {items : List Value} (object : root.IsObject)
    (reached : root.Reaches keys (.array items)) : keys ≠ [] := by
  obtain ⟨entries, rfl⟩ := object
  cases reached
  exact List.cons_ne_nil _ _

theorem isSome_find?_isUnfit : (root.lists.find? ListAt.isUnfit).isSome = true ↔
    ∃ keys items, root.Reaches keys (.array items) ∧ ∃ item ∈ items, item.isUnfit = true := by
  rw [List.find?_isSome]
  constructor
  · rintro ⟨list, member, unfit⟩
    exact ⟨_, _, reaches_of_mem_lists root list member, List.any_eq_true.mp unfit⟩
  · rintro ⟨keys, items, reached, unfit⟩
    exact ⟨⟨keys, items⟩, mem_lists_of_reaches reached rfl, List.any_eq_true.mpr unfit⟩

end

/-- A value has no events exactly when the root is no object but something, or some array at a
key, with objects alone above it, has an item that is no name. The fault of a root has an empty
path. Otherwise it is the fault of the first such array in the order of the file. -/
theorem rootEvents_fails_at_first (root : Value) :
    ((∃ error, rootEvents root = .error error) ↔
      (¬ root.IsObject ∧ root.isNothing = false) ∨
        ∃ keys items, keys ≠ [] ∧ root.Reaches keys (.array items) ∧
          ∃ item ∈ items, item.isUnfit = true) ∧
    ∀ error, rootEvents root = .error error ↔
      (¬ root.IsObject ∧ root.isNothing = false ∧ error = ⟨"", .root⟩) ∨
        root.IsObject ∧ ∃ list, root.lists.find? ListAt.isUnfit = some list ∧
          error = ⟨list.path, .listItem⟩ := by
  by_cases object : root.IsObject
  · simp only [object, not_true_eq_false, false_and, true_and, false_or]
    refine ⟨?_, rootEvents_of_object object⟩
    simp only [rootEvents_of_object object]
    constructor
    · rintro ⟨error, list, found, -⟩
      obtain ⟨keys, items, reached, unfit⟩ :=
        isSome_find?_isUnfit.mp (Option.isSome_of_eq_some found)
      exact ⟨keys, items, object.ne_nil reached, reached, unfit⟩
    · rintro ⟨keys, items, -, reached, unfit⟩
      obtain ⟨list, found⟩ :=
        Option.isSome_iff_exists.mp (isSome_find?_isUnfit.mpr ⟨keys, items, reached, unfit⟩)
      exact ⟨_, list, found, rfl⟩
  · simp only [object, not_false_eq_true, true_and, false_and, or_false]
    refine ⟨?_, rootEvents_of_not_object object⟩
    simp only [rootEvents_of_not_object object]
    constructor
    · rintro ⟨error, something, -⟩
      exact .inl something
    · rintro (something | ⟨keys, items, below, reached, -⟩)
      · exact ⟨_, something, rfl⟩
      · exact absurd (reached.isObject below) object

/-- Empty keys at the start leave no trace in the path, and later ones do. A list of the second
entry would come too late. -/
example :
    rootEvents (.object [("", .object [("a", .object [("", .object [("b", .array [.null])])])]),
      ("c", .array [.object []])]) = .error ⟨"a..b", .listItem⟩ := rfl

end BuildGraph.Manifest
