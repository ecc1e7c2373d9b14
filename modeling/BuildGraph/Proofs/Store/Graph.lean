import BuildGraph.Proofs.Store.Lookup
import Mathlib.Logic.Relation

/-! A store as a graph, and what each operation makes of it.

The graph is seen through a few questions about a number: its edges, its cleaned name, whether
its hint marks an executable and whether it was declared. A new target adds no edge, an edge is
added to its owner alone, names and hints never change, and a declaration stays.
-/

set_option autoImplicit false

namespace BuildGraph.Store

variable {store : Store} {id other owner dependency : TargetId} {name : TargetName}

def DependsOn (store : Store) (owner dependency : TargetId) : Prop :=
  dependency ∈ store.edges owner

def LeadsTo (store : Store) : TargetId → TargetId → Prop :=
  Relation.TransGen store.DependsOn

def name? (store : Store) (id : TargetId) : Option String :=
  (store.get? id).map Target.name

def hint? (store : Store) (id : TargetId) : Option (Option Usage) :=
  (store.get? id).map Target.hint

def declared? (store : Store) (id : TargetId) : Option Bool :=
  (store.get? id).map Target.declared

/-! ## Numbers and their targets -/

theorem get?_eq_none_iff : store.get? id = none ↔ store.size ≤ id :=
  List.getElem?_eq_none_iff

theorem lt_of_get? {target : Target} (held : store.get? id = some target) : id < store.size :=
  (List.getElem?_eq_some_iff.mp held).1

theorem exists_get?_of_lt (held : id < store.size) : ∃ target, store.get? id = some target :=
  ⟨_, List.getElem?_eq_getElem held⟩

theorem edges_of_get? {target : Target} (held : store.get? id = some target) :
    store.edges id = target.dependencies := by
  simp [edges, held]

theorem edges_of_le (unknown : store.size ≤ id) : store.edges id = [] := by
  simp [edges, get?_eq_none_iff.mpr unknown]

theorem dependsOn_iff : store.DependsOn owner dependency ↔
    ∃ target, store.get? owner = some target ∧ dependency ∈ target.dependencies := by
  cases found : store.get? owner <;> simp [DependsOn, edges, found]

theorem lt_of_dependsOn (edge : store.DependsOn owner dependency) : owner < store.size := by
  obtain held | unknown := Nat.lt_or_ge owner store.size
  · exact held
  · rw [DependsOn, edges_of_le unknown] at edge
    cases edge

theorem map_edges_ids (store : Store) :
    store.ids.map store.edges = store.targets.map Target.dependencies := by
  refine List.ext_getElem (by simp [ids, size]) fun id held _ => ?_
  have bound : id < store.targets.length := by simpa [ids, size] using held
  have found : store.get? id = some store.targets[id] := List.getElem?_eq_getElem bound
  simp [ids, edges_of_get? found]

theorem get?_push_of_lt (held : id < store.size) : (store.push name).get? id = store.get? id :=
  List.getElem?_append_left held

theorem get?_push_self : (store.push name).get? store.size = some (Target.ofName store.size name) :=
  List.getElem?_concat_length

theorem get?_modify (change : Target → Target) :
    (store.modify id change).get? other =
      if id = other then (store.get? other).map change else store.get? other := by
  simp only [modify, get?, List.getElem?_modify]
  split <;> simp

theorem map_get?_modify {α : Type} (view : Target → α) {change : Target → Target}
    (same : ∀ target, view (change target) = view target) :
    ((store.modify id change).get? other).map view = (store.get? other).map view := by
  rw [get?_modify]
  split
  · simp [Function.comp_def, same]
  · rfl

theorem map_get?_attach {α : Type} (view : Target → α)
    (added : ∀ target, view (target.withDependency dependency) = view target)
    (linked : ∀ target, view target.linkAsLibrary = view target) :
    ((store.attach owner dependency).get? other).map view = (store.get? other).map view := by
  rw [attach, map_get?_modify view linked, map_get?_modify view added]

@[simp] theorem dependencies_linkAsLibrary (target : Target) :
    target.linkAsLibrary.dependencies = target.dependencies := by
  unfold Target.linkAsLibrary
  split <;> rfl

@[simp] theorem name_linkAsLibrary (target : Target) : target.linkAsLibrary.name = target.name := by
  unfold Target.linkAsLibrary
  split <;> rfl

@[simp] theorem hint_linkAsLibrary (target : Target) : target.linkAsLibrary.hint = target.hint := by
  unfold Target.linkAsLibrary
  split <;> rfl

/-! ## Edges -/

@[simp] theorem edges_push (store : Store) (name : TargetName) :
    (store.push name).edges = store.edges := by
  funext id
  obtain held | rfl | beyond := Nat.lt_trichotomy id store.size
  · simp [edges, get?_push_of_lt held]
  · simp [edges_of_get? get?_push_self, edges_of_le, Target.ofName]
  · rw [edges_of_le (Nat.le_of_lt beyond), edges_of_le (by rw [size_push]; omega)]

@[simp] theorem edges_declare (store : Store) (id : TargetId) :
    (store.modify id Target.declare).edges = store.edges := by
  funext other
  have same : ∀ target : Target, target.declare.dependencies = target.dependencies := fun _ => rfl
  rw [edges, map_get?_modify Target.dependencies same, edges]

@[simp] theorem dependsOn_declare (store : Store) (id : TargetId) :
    (store.modify id Target.declare).DependsOn = store.DependsOn := by
  funext owner dependency
  rw [DependsOn, edges_declare, DependsOn]

theorem edges_attach (held : owner < store.size) :
    (store.attach owner dependency).edges id =
      if id = owner then store.edges id ++ [dependency] else store.edges id := by
  rw [edges, attach, map_get?_modify Target.dependencies dependencies_linkAsLibrary, get?_modify]
  split
  · next same =>
    subst same
    simp [edges, get?, List.getElem?_eq_getElem held, Target.withDependency]
  · next other => rw [if_neg (Ne.symm other), edges]

theorem dependsOn_attach (held : owner < store.size) :
    (store.attach owner dependency).DependsOn id other ↔
      store.DependsOn id other ∨ id = owner ∧ other = dependency := by
  rw [DependsOn, edges_attach held]
  split
  · next same => simp [DependsOn, same]
  · next different => simp [DependsOn, different]

/-! ## Names and hints -/

theorem name?_push_of_lt (held : id < store.size) :
    (store.push name).name? id = store.name? id := by
  rw [name?, get?_push_of_lt held, name?]

theorem name?_push_self : (store.push name).name? store.size = some name.cleaned := by
  rw [name?, get?_push_self]
  rfl

@[simp] theorem name?_attach (store : Store) (owner dependency : TargetId) :
    (store.attach owner dependency).name? = store.name? := by
  funext id
  exact map_get?_attach Target.name (fun _ => rfl) name_linkAsLibrary

@[simp] theorem name?_declare (store : Store) (id : TargetId) :
    (store.modify id Target.declare).name? = store.name? := by
  funext other
  exact map_get?_modify Target.name fun _ => rfl

theorem name?_of_find? {candidates : List TargetId} {cleaned : String}
    (found : store.find? candidates cleaned = some id) :
    id ∈ candidates ∧ store.name? id = some cleaned := by
  refine ⟨List.mem_of_find?_eq_some found, ?_⟩
  have named := List.find?_some found
  cases held : store.get? id with
  | none => simp [held] at named
  | some target => simpa [held, name?] using named

theorem find?_eq_none_iff {candidates : List TargetId} {cleaned : String} :
    store.find? candidates cleaned = none ↔
      ∀ id ∈ candidates, store.name? id ≠ some cleaned := by
  simp [find?, name?, Option.any_eq_false]

/-! ## Declarations -/

@[simp] theorem declared_linkAsLibrary (target : Target) :
    target.linkAsLibrary.declared = target.declared := by
  unfold Target.linkAsLibrary
  split <;> rfl

theorem declared?_push_of_ne (different : id ≠ store.size) :
    (store.push name).declared? id = store.declared? id := by
  obtain held | rfl | beyond := Nat.lt_trichotomy id store.size
  · rw [declared?, get?_push_of_lt held, declared?]
  · exact absurd rfl different
  · have unknown : (store.push name).size ≤ id := by rwa [size_push]
    rw [declared?, get?_eq_none_iff.mpr unknown, declared?,
      get?_eq_none_iff.mpr (Nat.le_of_lt beyond)]

@[simp] theorem declared?_attach (store : Store) (owner dependency : TargetId) :
    (store.attach owner dependency).declared? = store.declared? := by
  funext id
  exact map_get?_attach Target.declared (fun _ => rfl) declared_linkAsLibrary

theorem declared?_declare_self (held : id < store.size) :
    (store.modify id Target.declare).declared? id = some true := by
  have found : store.get? id = some store.targets[id] := List.getElem?_eq_getElem held
  rw [declared?, get?_modify, if_pos rfl, found]
  rfl

theorem declared?_declare_of_ne (different : other ≠ id) :
    (store.modify id Target.declare).declared? other = store.declared? other := by
  rw [declared?, get?_modify, if_neg different.symm, declared?]

end BuildGraph.Store
