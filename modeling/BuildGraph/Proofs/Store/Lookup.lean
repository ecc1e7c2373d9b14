import BuildGraph.Store

/-! Which numbers a store holds, and what each operation makes of them.

An operation fails exactly at a number that is not held. `attach` is the effect of an
edge between two numbers that are held.
-/

set_option autoImplicit false

namespace BuildGraph.Store

variable {store : Store} {id owner dependency : TargetId}

/-- Add an edge without looking whether the two numbers are held. -/
def attach (store : Store) (owner dependency : TargetId) : Store :=
  (store.modify owner (·.withDependency dependency)).modify dependency Target.linkAsLibrary

@[simp] theorem size_push (store : Store) (name : TargetName) :
    (store.push name).size = store.size + 1 := by
  simp [size, push]

@[simp] theorem size_modify (store : Store) (id : TargetId) (change : Target → Target) :
    (store.modify id change).size = store.size := by
  simp [size, modify]

@[simp] theorem size_attach (store : Store) (owner dependency : TargetId) :
    (store.attach owner dependency).size = store.size := by
  simp [attach]

theorem get_of_lt (held : id < store.size) : ∃ target, store.get id = .ok target := by
  have found : store.get? id = some (store.targets.get ⟨id, held⟩) :=
    List.getElem?_eq_getElem held
  exact ⟨store.targets.get ⟨id, held⟩, by rw [get, found]⟩

theorem get_of_le (unknown : store.size ≤ id) : store.get id = .error (.unknown id store.size) := by
  simp [get, get?, List.getElem?_eq_none unknown]

theorem edges_of_get {target : Target} (held : store.get id = .ok target) :
    store.edges id = target.dependencies := by
  simp only [get] at held
  split at held
  · next found =>
    cases held
    simp [edges, found]
  · cases held

theorem find?_lt {candidates : List TargetId} {name : String}
    (found : store.find? candidates name = some id) : id < store.size := by
  have named := List.find?_some found
  cases held : store.get? id with
  | none => simp [held] at named
  | some target => exact (List.getElem?_eq_some_iff.mp held).1

theorem link_eq_attach (ownerHeld : owner < store.size) (held : dependency < store.size) :
    store.link owner dependency = .ok (store.attach owner dependency) := by
  obtain ⟨_, ownerFound⟩ := get_of_lt ownerHeld
  obtain ⟨_, found⟩ := get_of_lt held
  simp [link, ownerFound, found, attach]

theorem link_unknown_owner (unknown : store.size ≤ owner) (held : dependency < store.size) :
    store.link owner dependency = .error (.unknown owner store.size) := by
  obtain ⟨_, found⟩ := get_of_lt held
  simp [link, get_of_le unknown, found]

theorem declare_eq_modify (held : id < store.size) :
    store.declare id = .ok (store.modify id Target.declare) := by
  obtain ⟨_, found⟩ := get_of_lt held
  simp [declare, found, Except.map]

end BuildGraph.Store
