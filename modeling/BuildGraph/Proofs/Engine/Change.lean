import BuildGraph.Engine

/-! Running a change of an engine, one primitive at a time. -/

set_option autoImplicit false

namespace BuildGraph

namespace Change

variable {α β : Type}

@[simp] theorem bind_apply (change : Change α) (rest : α → Change β) (engine : Engine) :
    (change >>= rest) engine =
      match change engine with
      | .ok value next => rest value next
      | .error cause next => .error cause next := by
  simp only [bind, EStateM.bind]
  cases change engine <;> rfl

@[simp] theorem map_apply (change : Change α) (f : α → β) (engine : Engine) :
    (f <$> change) engine =
      match change engine with
      | .ok value next => .ok (f value) next
      | .error cause next => .error cause next := by
  simp only [Functor.map, EStateM.map]
  cases change engine <;> rfl

@[simp] theorem discard_apply (change : Change α) (engine : Engine) :
    (discard change : Change PUnit) engine =
      match change engine with
      | .ok _ next => .ok () next
      | .error cause next => .error cause next :=
  map_apply change (fun _ => ()) engine

@[simp] theorem pure_apply (value : α) (engine : Engine) :
    (pure value : Change α) engine = .ok value engine := rfl

@[simp] theorem throw_apply (cause : EngineError) (engine : Engine) :
    (throw cause : Change α) engine = .error cause engine := rfl

@[simp] theorem get_apply (engine : Engine) :
    (get : Change Engine) engine = .ok engine engine := rfl

@[simp] theorem set_apply (engine next : Engine) :
    (set next : Change PUnit) engine = .ok () next := rfl

@[simp] theorem modify_apply (f : Engine → Engine) (engine : Engine) :
    (modify f : Change PUnit) engine = .ok () (f engine) := rfl

@[simp] theorem lift_name_ok (value : α) :
    (liftM (.ok value : Except NameError α) : Change α) = pure value := rfl

@[simp] theorem lift_name_error (cause : NameError) :
    (liftM (.error cause : Except NameError α) : Change α) = throw (.name cause) := rfl

@[simp] theorem lift_store_ok (value : α) :
    (liftM (.ok value : Except StoreError α) : Change α) = pure value := rfl

@[simp] theorem lift_store_error (cause : StoreError) :
    (liftM (.error cause : Except StoreError α) : Change α) = throw (.store cause) := rfl

@[simp] theorem lift_scope_ok (value : α) :
    (liftM (.ok value : Except ScopeError α) : Change α) = pure value := rfl

end Change

namespace Engine

@[simp] theorem setStore_apply (store : Store) (engine : Engine) :
    setStore store engine = .ok () { engine with store := store } := rfl

@[simp] theorem takeHeld_apply (engine : Engine) :
    takeHeld engine = .ok engine.held engine.withoutHeld := rfl

@[simp] theorem openScope_apply (id : TargetId) (engine : Engine) :
    openScope id engine = .ok () { engine with scopes := engine.scopes.push id } := rfl

theorem closeScope_apply {engine : Engine} {owner : TargetId} {outer : List TargetId}
    (owners : engine.scopes.owners = owner :: outer) :
    closeScope engine =
      .ok () { engine with scopes := { engine.scopes with owners := outer } } := by
  simp [closeScope, ScopeStack.pop, owners]

end Engine

end BuildGraph
