import BuildGraph.Target.Name

/-! Targets of one document, numbered in the order of their creation.

A store only grows: targets are appended, dependency lists are appended to, and
a usage moves at most once, from an executable by default to a library. An
operation that meets an unknown number fails and changes nothing.
-/

set_option autoImplicit false

namespace BuildGraph

/-- The number of a target: its place in the store, from zero. -/
abbrev TargetId := Nat

/-- How a number is shown in messages. -/
def TargetId.text (id : TargetId) : String := "#" ++ toString id

/-- One build unit. `usage` is the role inferred so far and `hint` the one the
raw name spelled out; `declared` tells a key from a name that was only listed. -/
structure Target where
  id : TargetId
  name : String
  usage : Usage
  hint : Option Usage
  dependencies : List TargetId
  declared : Bool
  deriving DecidableEq, Repr

namespace Target

/-- A target without a hint is an executable until something depends on it. -/
def ofName (id : TargetId) (name : TargetName) : Target where
  id := id
  name := name.cleaned
  usage := name.hint.getD .executable
  hint := name.hint
  dependencies := []
  declared := false

def withDependency (target : Target) (dependency : TargetId) : Target :=
  { target with dependencies := target.dependencies ++ [dependency] }

/-- The effect of being depended upon: an executable by default becomes a library. -/
def linkAsLibrary (target : Target) : Target :=
  if target.usage = .executable ∧ target.hint = none then { target with usage := .library }
  else target

def declare (target : Target) : Target :=
  { target with declared := true }

/-- The name with the mark of the current usage. -/
def shownName (target : Target) : String :=
  TargetName.spell target.name (some target.usage)

end Target

/-- A number that the store does not hold. -/
inductive StoreError where
  | unknown (id : TargetId) (size : Nat)
  deriving DecidableEq, Repr

def StoreError.message : StoreError → String
  | unknown id size =>
    "target " ++ TargetId.text id ++ " is out of range for a store of " ++ toString size
      ++ " targets"

def StoreError.code : StoreError → String
  | unknown _ _ => "targetgraph::store::out_of_range"

structure Store where
  targets : List Target
  deriving DecidableEq, Repr

namespace Store

def empty : Store := ⟨[]⟩

def size (store : Store) : Nat := store.targets.length

def ids (store : Store) : List TargetId := List.range store.size

def get? (store : Store) (id : TargetId) : Option Target := store.targets[id]?

def get (store : Store) (id : TargetId) : Except StoreError Target :=
  match store.get? id with
  | some target => .ok target
  | none => .error (.unknown id store.size)

/-- The dependency list of a target, empty for an unknown number. -/
def edges (store : Store) (id : TargetId) : List TargetId :=
  ((store.get? id).map Target.dependencies).getD []

/-- Append an undeclared target for an already split name. -/
def push (store : Store) (name : TargetName) : Store :=
  ⟨store.targets ++ [Target.ofName store.size name]⟩

/-- Append a target for a raw name; its number is the old size. -/
def add (store : Store) (name : String) : Except NameError (Store × TargetId) :=
  (TargetName.ofString name).map fun split => (store.push split, store.size)

/-- The first candidate with the cleaned name; unknown numbers are passed over. -/
def find? (store : Store) (candidates : List TargetId) (name : String) : Option TargetId :=
  candidates.find? fun id => (store.get? id).any fun target => target.name == name

def modify (store : Store) (id : TargetId) (change : Target → Target) : Store :=
  ⟨store.targets.modify id change⟩

/-- Record an edge. The dependency is looked up before its owner, and the store
changes only when both are known. -/
def link (store : Store) (owner dependency : TargetId) : Except StoreError Store :=
  match store.get dependency, store.get owner with
  | .error e, _ => .error e
  | _, .error e => .error e
  | .ok _, .ok _ =>
    .ok ((store.modify owner (·.withDependency dependency)).modify dependency Target.linkAsLibrary)

def declare (store : Store) (id : TargetId) : Except StoreError Store :=
  (store.get id).map fun _ => store.modify id Target.declare

def dependencies (store : Store) (id : TargetId) : Except StoreError (List Target) :=
  match store.get id with
  | .error e => .error e
  | .ok target => target.dependencies.mapM store.get

/-- Every target that lists `id`, each once and in order. -/
def dependents (store : Store) (id : TargetId) : Except StoreError (List TargetId) :=
  (store.get id).map fun _ =>
    (store.targets.filter fun target => target.dependencies.contains id).map Target.id

def isExecutable (store : Store) (id : TargetId) : Bool :=
  (store.get? id).any fun target => target.usage == .executable

end Store

end BuildGraph
