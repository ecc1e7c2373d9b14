import BuildGraph.Event
import BuildGraph.Scope

/-! Why the engine refuses an event. -/

set_option autoImplicit false

namespace BuildGraph

/-- What an event out of order would have needed. -/
inductive Disorder where
  | noDocument
  | documentStillOpen
  | listStillOpen
  | mappingsStillOpen
  | namesOnly
  | noMapping
  | nestedList
  | listWithoutName
  | noList
  | listWithoutOwner
  | neverClosed
  deriving DecidableEq, Repr

def Disorder.text : Disorder → String
  | noDocument => "no document is open"
  | documentStillOpen => "previous document is still open"
  | listStillOpen => "dependency list is still open"
  | mappingsStillOpen => "mappings are still open"
  | namesOnly => "dependency lists may only contain names"
  | noMapping => "no mapping is open"
  | nestedList => "dependency lists cannot be nested"
  | listWithoutName => "a dependency list must follow a target name"
  | noList => "no dependency list is open"
  | listWithoutOwner => "dependency list has no owning target"
  | neverClosed => "document was never closed"

inductive EngineError where
  | name (cause : NameError)
  | outOfOrder (kind : EventKind) (reason : Disorder)
  | aborted
  | store (cause : StoreError)
  | scope (cause : ScopeError)
  deriving DecidableEq, Repr

namespace EngineError

def message : EngineError → String
  | name cause => cause.message
  | outOfOrder kind reason => "unexpected " ++ kind.text ++ ": " ++ reason.text
  | aborted => "engine was aborted by an earlier error; start a new document"
  | store cause => cause.message
  | scope cause => cause.message

/-- The diagnostic code; a cause from below keeps its own. -/
def code : EngineError → String
  | name cause => cause.code
  | outOfOrder _ _ => "targetgraph::engine::structural"
  | aborted => "targetgraph::engine::poisoned"
  | store cause => cause.code
  | scope cause => cause.code

def help : EngineError → Option String
  | name cause => cause.help
  | _ => none

def isOutOfOrder : EngineError → Bool
  | outOfOrder _ _ => true
  | _ => false

end EngineError

end BuildGraph
