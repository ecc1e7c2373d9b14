import BuildGraph.Event
import BuildGraph.Proofs.Draft
import BuildGraph.Proofs.Target.Name

/-! Documents as trees, and the graph that a tree stands for.

`bodyEvents` writes a tree as events. `build` reads the tree directly: every key is placed
in its scope when it is met, and the scope of a nested body is its key.
-/

set_option autoImplicit false

namespace BuildGraph.Outline

/-- One entry of a body: a key alone, with a list of names, with a body of its own, or a
body without a key. -/
inductive Entry where
  | leaf (key : String)
  | list (key : String) (names : List String)
  | nested (key : String) (body : List Entry)
  | bare (body : List Entry)

/-- Induction over bodies. A body under an entry comes before the entries that follow it. -/
theorem induction {motive : List Entry → Prop} (nil : motive [])
    (leaf : ∀ key rest, motive rest → motive (.leaf key :: rest))
    (list : ∀ key names rest, motive rest → motive (.list key names :: rest))
    (nested : ∀ key body rest, motive body → motive rest → motive (.nested key body :: rest))
    (bare : ∀ body rest, motive body → motive rest → motive (.bare body :: rest)) :
    ∀ body, motive body
  | [] => nil
  | .leaf key :: rest => leaf key rest (induction nil leaf list nested bare rest)
  | .list key names :: rest => list key names rest (induction nil leaf list nested bare rest)
  | .nested key body :: rest =>
    nested key body rest (induction nil leaf list nested bare body)
      (induction nil leaf list nested bare rest)
  | .bare body :: rest =>
    bare body rest (induction nil leaf list nested bare body)
      (induction nil leaf list nested bare rest)

/-! ## Events -/

mutual

def Entry.events : Entry → List Event
  | .leaf key => [.scalar key]
  | .list key names => .scalar key :: .listStart :: names.map .scalar ++ [.listEnd]
  | .nested key body => .scalar key :: .mappingStart :: bodyEvents body ++ [.mappingEnd]
  | .bare body => .mappingStart :: bodyEvents body ++ [.mappingEnd]

def bodyEvents : List Entry → List Event
  | [] => []
  | entry :: rest => entry.events ++ bodyEvents rest

end

def documentEvents (body : List Entry) : List Event :=
  .documentStart :: bodyEvents body ++ [.documentEnd]

def streamEvents (documents : List (List Entry)) : List Event :=
  documents.flatMap documentEvents

section

variable (key : String) (names : List String) (body rest : List Entry)

theorem bodyEvents_leaf :
    bodyEvents (.leaf key :: rest) = .scalar key :: bodyEvents rest := rfl

theorem bodyEvents_list :
    bodyEvents (.list key names :: rest) =
      .scalar key :: .listStart :: (names.map .scalar ++ .listEnd :: bodyEvents rest) := by
  simp [bodyEvents, Entry.events]

theorem bodyEvents_nested :
    bodyEvents (.nested key body :: rest) =
      .scalar key :: .mappingStart :: (bodyEvents body ++ .mappingEnd :: bodyEvents rest) := by
  simp [bodyEvents, Entry.events]

theorem bodyEvents_bare :
    bodyEvents (.bare body :: rest) =
      .mappingStart :: (bodyEvents body ++ .mappingEnd :: bodyEvents rest) := by
  simp [bodyEvents, Entry.events]

end

theorem forall_mem_bodyEvents (body : List Entry) :
    ∀ event ∈ bodyEvents body, event ≠ .documentStart ∧ event ≠ .documentEnd := by
  induction body using induction with
  | nil => exact nofun
  | leaf key rest ih => simpa [bodyEvents_leaf] using ih
  | list key names rest ih => simpa [bodyEvents_list, or_imp, forall_and] using ih
  | nested key body rest inner ih =>
    simp only [bodyEvents_nested, List.forall_mem_cons, List.forall_mem_append]
    exact ⟨by simp, by simp, inner, by simp, ih⟩
  | bare body rest inner ih =>
    simp only [bodyEvents_bare, List.forall_mem_cons, List.forall_mem_append]
    exact ⟨by simp, inner, by simp, ih⟩

theorem documentStart_not_mem_bodyEvents (body : List Entry) : .documentStart ∉ bodyEvents body :=
  fun member => (forall_mem_bodyEvents body _ member).1 rfl

theorem documentEnd_not_mem_bodyEvents (body : List Entry) : .documentEnd ∉ bodyEvents body :=
  fun member => (forall_mem_bodyEvents body _ member).2 rfl

theorem count_documentEnd (documents : List (List Entry)) :
    (streamEvents documents).count .documentEnd = documents.length := by
  induction documents with
  | nil => rfl
  | cons body rest ih =>
    have none : (bodyEvents body).count .documentEnd = 0 :=
      List.count_eq_zero.mpr (documentEnd_not_mem_bodyEvents body)
    rw [streamEvents] at ih
    simp [streamEvents, documentEvents, none, ih]

/-! ## Well-formed bodies -/

def Entry.isLeaf : Entry → Bool
  | .leaf _ => true
  | _ => false

def Entry.isBare : Entry → Bool
  | .bare _ => true
  | _ => false

mutual

def Entry.Separated : Entry → Prop
  | .leaf _ => True
  | .list _ _ => True
  | .nested _ body => Separated body
  | .bare body => Separated body

/-- No body without a key comes right after a key alone, whose body it would seem to be. -/
def Separated : List Entry → Prop
  | [] => True
  | entry :: rest =>
    entry.Separated ∧ Separated rest ∧
      (entry.isLeaf = true → ∀ next ∈ rest.head?, next.isBare = false)

end

/-- A key alone can be joined with a body that follows it, for the events are the same. -/
theorem exists_separated (body : List Entry) :
    ∃ joined, Separated joined ∧ bodyEvents joined = bodyEvents body := by
  induction body using induction with
  | nil => exact ⟨[], trivial, rfl⟩
  | leaf key rest ih =>
    obtain ⟨joined, separated, same⟩ := ih
    rw [bodyEvents_leaf, ← same]
    cases joined with
    | nil => exact ⟨[.leaf key], ⟨trivial, trivial, fun _ => nofun⟩, rfl⟩
    | cons next after =>
      cases next with
      | bare body =>
        refine ⟨.nested key body :: after, ⟨separated.1, separated.2.1, nofun⟩, ?_⟩
        rw [bodyEvents_nested, bodyEvents_bare]
      | _ =>
        refine ⟨.leaf key :: _ :: after, ⟨trivial, separated, ?_⟩, rfl⟩
        intro _ entry first
        cases first
        rfl
  | list key names rest ih =>
    obtain ⟨joined, separated, same⟩ := ih
    refine ⟨.list key names :: joined, ⟨trivial, separated, nofun⟩, ?_⟩
    rw [bodyEvents_list, bodyEvents_list, same]
  | nested key body rest inner ih =>
    obtain ⟨joinedBody, separatedBody, sameBody⟩ := inner
    obtain ⟨joined, separated, same⟩ := ih
    refine ⟨.nested key joinedBody :: joined, ⟨separatedBody, separated, nofun⟩, ?_⟩
    rw [bodyEvents_nested, bodyEvents_nested, sameBody, same]
  | bare body rest inner ih =>
    obtain ⟨joinedBody, separatedBody, sameBody⟩ := inner
    obtain ⟨joined, separated, same⟩ := ih
    refine ⟨.bare joinedBody :: joined, ⟨separatedBody, separated, nofun⟩, ?_⟩
    rw [bodyEvents_bare, bodyEvents_bare, sameBody, same]

def Named (events : List Event) : Prop :=
  ∀ raw, .scalar raw ∈ events → ∃ name, TargetName.ofString raw = .ok name

theorem Named.head {raw : String} {rest : List Event} (named : Named (.scalar raw :: rest)) :
    ∃ name, TargetName.ofString raw = .ok name :=
  named raw List.mem_cons_self

theorem Named.tail {event : Event} {rest : List Event} (named : Named (event :: rest)) :
    Named rest :=
  fun raw member => named raw (List.mem_cons_of_mem event member)

theorem Named.left {front back : List Event} (named : Named (front ++ back)) : Named front :=
  fun raw member => named raw (List.mem_append_left back member)

theorem Named.right {front back : List Event} (named : Named (front ++ back)) : Named back :=
  fun raw member => named raw (List.mem_append_right front member)

theorem named_iff (events : List Event) :
    Named events ↔ ∀ raw, .scalar raw ∈ events → raw ≠ "" ∧ raw ≠ "*" := by
  simp only [Named, TargetName.ofString_accepts_iff]

/-! ## Streams -/

/-- A list of documents, whose names are neither empty nor a lone star. -/
def IsStream (events : List Event) : Prop :=
  (∃ documents, events = streamEvents documents) ∧
    ∀ raw, .scalar raw ∈ events → raw ≠ "" ∧ raw ≠ "*"

def Viable (events : List Event) : Prop :=
  ∃ rest, IsStream (events ++ rest)

/-! ## The graph of a tree -/

/-- Read the entries of a list whose owner was declared in `outer`. -/
def buildNames (draft : Draft) (outer : Option TargetId) (owner : TargetId) :
    List String → Except NameError Draft
  | [] => .ok draft
  | raw :: rest => do
    let name ← TargetName.ofString raw
    buildNames (draft.addEntry outer owner name) outer owner rest

mutual

def buildEntry (draft : Draft) (scope : Option TargetId) : Entry → Except NameError Draft
  | .leaf key => do
    let name ← TargetName.ofString key
    return (draft.declare scope name).1
  | .list key names => do
    let name ← TargetName.ofString key
    let (declared, owner) := draft.declare scope name
    buildNames declared scope owner names
  | .nested key body => do
    let name ← TargetName.ofString key
    let (declared, owner) := draft.declare scope name
    buildBody declared (some owner) body
  | .bare body => buildBody draft scope body

def buildBody (draft : Draft) (scope : Option TargetId) : List Entry → Except NameError Draft
  | [] => .ok draft
  | entry :: rest => do
    let draft ← buildEntry draft scope entry
    buildBody draft scope rest

end

section

variable {draft : Draft} {scope : Option TargetId} {key : String} {name : TargetName}
  {rest : List Entry}

theorem buildBody_leaf (named : TargetName.ofString key = .ok name) :
    buildBody draft scope (.leaf key :: rest) =
      buildBody (draft.declare scope name).1 scope rest := by
  rw [buildBody, buildEntry, named]
  rfl

theorem buildBody_list (named : TargetName.ofString key = .ok name) (names : List String) :
    buildBody draft scope (.list key names :: rest) =
      buildNames (draft.declare scope name).1 scope (draft.declare scope name).2 names >>=
        fun listed => buildBody listed scope rest := by
  rw [buildBody, buildEntry, named]
  rfl

theorem buildBody_nested (named : TargetName.ofString key = .ok name) (body : List Entry) :
    buildBody draft scope (.nested key body :: rest) =
      buildBody (draft.declare scope name).1 (some (draft.declare scope name).2) body >>=
        fun inner => buildBody inner scope rest := by
  rw [buildBody, buildEntry, named]
  rfl

theorem buildBody_bare (draft : Draft) (scope : Option TargetId) (body rest : List Entry) :
    buildBody draft scope (.bare body :: rest) =
      buildBody draft scope body >>= fun inner => buildBody inner scope rest := by
  rw [buildBody, buildEntry]

end

def build (body : List Entry) : Except NameError Draft :=
  buildBody .empty none body

end BuildGraph.Outline
