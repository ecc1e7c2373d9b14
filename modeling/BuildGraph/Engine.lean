import BuildGraph.Engine.Error

/-! The engine that folds parse events into a store.

A key is held back until the next event shows whether it has children, and is
then resolved in the current scope or created there. A mapping under a key opens
that key's scope; a mapping without one opens nothing. List entries resolve among
the siblings of the list's owner, then globally. A refused event aborts the
document: nothing but a new document is accepted after it.
-/

set_option autoImplicit false

namespace BuildGraph

/-- Whether a mapping opened the scope of a target. -/
inductive Mapping where
  | keyed
  | bare
  deriving DecidableEq, Repr

inductive Phase where
  | idle
  | active
  | aborted
  deriving DecidableEq, Repr

/-- `globals` lists the global names, `held` is the key held back, `mappings`
are the open mappings, the innermost first, and `listOpen` tells an open list. -/
structure Engine where
  phase : Phase
  store : Store
  scopes : ScopeStack
  mappings : List Mapping
  globals : List TargetId
  held : Option String
  listOpen : Bool
  deriving DecidableEq, Repr

/-- What can be told from outside about where an engine is. -/
inductive EngineState where
  | idle
  | inDocument
  | inMapping (depth : Nat)
  | keyHeld
  | aborted
  deriving DecidableEq, Repr

inductive Progress where
  | more
  | documentDone
  deriving DecidableEq, Repr

/-- A change of an engine. A refusal stops it, and what it has changed by then stays. -/
abbrev Change := EStateM EngineError Engine

/-- The causes from the layers below become engine errors. -/
instance : MonadLift (Except NameError) Change where
  monadLift
    | .ok value => pure value
    | .error cause => throw (.name cause)

instance : MonadLift (Except StoreError) Change where
  monadLift
    | .ok value => pure value
    | .error cause => throw (.store cause)

instance : MonadLift (Except ScopeError) Change where
  monadLift
    | .ok value => pure value
    | .error cause => throw (.scope cause)

namespace Engine

def initial : Engine where
  phase := .idle
  store := .empty
  scopes := .empty
  mappings := []
  globals := []
  held := none
  listOpen := false

def state (engine : Engine) : EngineState :=
  match engine.phase with
  | .idle => .idle
  | .aborted => .aborted
  | .active =>
    if engine.held.isSome then .keyHeld
    else if engine.mappings = [] ∧ engine.scopes.depth = 0 then .inDocument
    else .inMapping (engine.mappings.length + engine.listOpen.toNat)

/-- Move the store out and leave an empty one. -/
def release (engine : Engine) : Store × Engine :=
  (engine.store, { engine with store := .empty })

/-- The target of a cleaned name in the scope where keys are declared. -/
def lookup (engine : Engine) (cleaned : String) : Except StoreError (Option TargetId) :=
  match engine.scopes.top with
  | none => .ok (engine.store.find? engine.globals cleaned)
  | some owner =>
    (engine.store.get owner).map fun target => engine.store.find? target.dependencies cleaned

def setStore (store : Store) : Change Unit :=
  modify fun engine => { engine with store := store }

/-- Create a target among the global names. -/
def createGlobal (name : TargetName) : Change TargetId :=
  modifyGet fun engine =>
    (engine.store.size,
      { engine with
          store := engine.store.push name
          globals := engine.globals ++ [engine.store.size] })

/-- Create a target in the scope where keys are declared. -/
def create (name : TargetName) : Change TargetId := do
  let engine ← get
  match engine.scopes.top with
  | none => createGlobal name
  | some owner =>
    let created := engine.store.size
    let store := engine.store.push name
    setStore store
    setStore (← store.link owner created)
    return created

/-- The target of a key: the one of its name in the current scope, else a new one. -/
def place (name : TargetName) : Change TargetId := do
  match ← (← get).lookup name.cleaned with
  | some existing => return existing
  | none => create name

/-- Resolve or create a key in the current scope and mark it as declared. -/
def declareKey (raw : String) : Change TargetId := do
  let id ← place (← TargetName.ofString raw)
  setStore (← (← get).store.declare id)
  return id

def withoutHeld (engine : Engine) : Engine :=
  { engine with held := none }

def takeHeld : Change (Option String) :=
  modifyGet fun engine => (engine.held, engine.withoutHeld)

/-- Declare the key held back, which turned out to have no children. -/
def settle : Change Unit := do
  match ← takeHeld with
  | none => pure ()
  | some raw => discard (declareKey raw)

/-- What a list entry resolves to: a sibling of the list's owner, or a global name. -/
def resolveEntry (engine : Engine) (cleaned : String) : Except StoreError (Option TargetId) :=
  let global := engine.store.find? engine.globals cleaned
  match engine.scopes.parent with
  | none => .ok global
  | some parent =>
    (engine.store.get parent).map fun target =>
      (engine.store.find? target.dependencies cleaned).or global

/-- The target of a list entry. A name that resolves to nothing is created globally. -/
def placeEntry (name : TargetName) : Change TargetId := do
  match ← (← get).resolveEntry name.cleaned with
  | some existing => return existing
  | none => createGlobal name

/-- Attach a list entry to the list's owner. A target that was created for the entry
stays when the owner turns out to be unknown. -/
def addEntry (name : TargetName) : Change Unit := do
  match (← get).scopes.top with
  | none => throw (.outOfOrder .scalar .listWithoutOwner)
  | some owner =>
    let entry ← placeEntry name
    setStore (← (← get).store.link owner entry)

def openScope (id : TargetId) : Change Unit :=
  modify fun engine => { engine with scopes := engine.scopes.push id }

def closeScope : Change Unit := do
  let (_, scopes) ← (← get).scopes.pop
  modify fun engine => { engine with scopes := scopes }

def openDocument : Change Unit := do
  let engine ← get
  if engine.phase = .active then throw (.outOfOrder .documentStart .documentStillOpen)
  else set { initial with phase := .active, scopes := engine.scopes.clear }

def closeDocument : Change Unit := do
  let engine ← get
  if engine.listOpen then throw (.outOfOrder .documentEnd .listStillOpen)
  else if engine.mappings ≠ [] ∨ engine.scopes.depth ≠ 0 then
    throw (.outOfOrder .documentEnd .mappingsStillOpen)
  else
    settle
    modify fun engine => { engine with phase := .idle }

def openMapping : Change Unit := do
  if (← get).listOpen then throw (.outOfOrder .mappingStart .namesOnly)
  else match ← takeHeld with
    | none => modify fun engine => { engine with mappings := .bare :: engine.mappings }
    | some raw =>
      openScope (← declareKey raw)
      modify fun engine => { engine with mappings := .keyed :: engine.mappings }

def closeMapping : Change Unit := do
  let engine ← get
  if engine.listOpen then throw (.outOfOrder .mappingEnd .listStillOpen)
  else match engine.mappings with
    | [] => throw (.outOfOrder .mappingEnd .noMapping)
    | mapping :: outer =>
      settle
      match mapping with
      | .bare => pure ()
      | .keyed => closeScope
      modify fun engine => { engine with mappings := outer }

def openList : Change Unit := do
  if (← get).listOpen then throw (.outOfOrder .listStart .nestedList)
  else match ← takeHeld with
    | none => throw (.outOfOrder .listStart .listWithoutName)
    | some raw =>
      openScope (← declareKey raw)
      modify fun engine => { engine with listOpen := true }

def closeList : Change Unit := do
  if (← get).listOpen then
    closeScope
    modify fun engine => { engine with listOpen := false }
  else throw (.outOfOrder .listEnd .noList)

/-- A name is checked at once, whether it is a key or a list entry. -/
def scalar (raw : String) : Change Unit := do
  let name ← TargetName.ofString raw
  if (← get).listOpen then addEntry name
  else
    settle
    modify fun engine => { engine with held := some raw }

/-- The effect of an event in the phase where it comes. -/
def step (event : Event) : Change Progress := do
  match (← get).phase, event with
  | _, .documentStart => openDocument; return .more
  | .aborted, _ => throw .aborted
  | .idle, other => throw (.outOfOrder other.kind .noDocument)
  | .active, .documentEnd => closeDocument; return .documentDone
  | .active, .mappingStart => openMapping; return .more
  | .active, .mappingEnd => closeMapping; return .more
  | .active, .listStart => openList; return .more
  | .active, .listEnd => closeList; return .more
  | .active, .scalar raw => scalar raw; return .more

/-- Feed one event; a refusal aborts the document. -/
def feed (engine : Engine) (event : Event) : Engine × Except EngineError Progress :=
  match step event engine with
  | .ok progress next => (next, .ok progress)
  | .error cause next => ({ next with phase := .aborted }, .error cause)

end Engine

end BuildGraph
