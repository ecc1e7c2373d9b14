/-! Parse events of a target file.

General sequences do not occur: a list of names under a key is bracketed by
`listStart` and `listEnd`, and its items are scalars like the keys.
-/

set_option autoImplicit false

namespace BuildGraph

/-- What an event is, apart from its text. `streamEnd` is no event; it names the
place where a stream stops too early. -/
inductive EventKind where
  | documentStart
  | documentEnd
  | mappingStart
  | mappingEnd
  | listStart
  | listEnd
  | scalar
  | streamEnd
  deriving DecidableEq, Repr

def EventKind.text : EventKind → String
  | documentStart => "document start"
  | documentEnd => "document end"
  | mappingStart => "mapping start"
  | mappingEnd => "mapping end"
  | listStart => "dependency list start"
  | listEnd => "dependency list end"
  | scalar => "scalar"
  | streamEnd => "end of stream"

inductive Event where
  | documentStart
  | documentEnd
  | mappingStart
  | mappingEnd
  | listStart
  | listEnd
  | scalar (name : String)
  deriving DecidableEq, Repr

namespace Event

def kind : Event → EventKind
  | documentStart => .documentStart
  | documentEnd => .documentEnd
  | mappingStart => .mappingStart
  | mappingEnd => .mappingEnd
  | listStart => .listStart
  | listEnd => .listEnd
  | scalar _ => .scalar

def text : Event → String
  | scalar name => "scalar '" ++ name ++ "'"
  | event => event.kind.text

end Event

end BuildGraph
