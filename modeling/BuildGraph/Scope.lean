import BuildGraph.Store

/-! The targets whose mappings are open.

Depth zero is the global scope. The deepest depth ever reached is kept, also
when the stack is cleared.
-/

set_option autoImplicit false

namespace BuildGraph

/-- Closing a scope at global scope. -/
inductive ScopeError where
  | empty
  deriving DecidableEq, Repr

def ScopeError.message : ScopeError → String
  | empty => "scope stack is empty"

def ScopeError.code : ScopeError → String
  | empty => "targetgraph::scope::empty"

/-- Owners of the open scopes, innermost first. -/
structure ScopeStack where
  owners : List TargetId
  deepest : Nat
  deriving DecidableEq, Repr

namespace ScopeStack

def empty : ScopeStack := ⟨[], 0⟩

def depth (stack : ScopeStack) : Nat := stack.owners.length

def push (stack : ScopeStack) (id : TargetId) : ScopeStack :=
  ⟨id :: stack.owners, max stack.deepest (stack.depth + 1)⟩

def pop (stack : ScopeStack) : Except ScopeError (TargetId × ScopeStack) :=
  match stack.owners with
  | [] => .error .empty
  | id :: outer => .ok (id, { stack with owners := outer })

def clear (stack : ScopeStack) : ScopeStack :=
  { stack with owners := [] }

/-- The owner of the innermost scope. -/
def top (stack : ScopeStack) : Option TargetId := stack.owners.head?

/-- The owner of the scope around the innermost one. -/
def parent (stack : ScopeStack) : Option TargetId := stack.owners[1]?

/-- Owners from the outermost scope inwards. -/
def toList (stack : ScopeStack) : List TargetId := stack.owners.reverse

end ScopeStack

end BuildGraph
