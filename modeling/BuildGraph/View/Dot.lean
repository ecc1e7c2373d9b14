import BuildGraph.Store

/-! The DOT view: a node statement per target, then an edge statement per target
with dependencies. Executables are boxes and libraries ellipses. -/

set_option autoImplicit false

namespace BuildGraph

namespace Dot

inductive Statement where
  | node (id : TargetId) (label : String) (usage : Usage)
  | edges (id : TargetId) (dependencies : List TargetId)
  deriving DecidableEq, Repr

def shape : Usage → String
  | .executable => "box"
  | .library => "ellipse"

/-- A backslash or a quote is written behind a backslash. -/
def escapeChars : List Char → List Char
  | [] => []
  | c :: rest =>
    if c = '\\' ∨ c = '"' then '\\' :: c :: escapeChars rest else c :: escapeChars rest

def escape (label : String) : String := String.ofList (escapeChars label.toList)

def nodeName (id : TargetId) : String := "n" ++ toString id

def Statement.text : Statement → String
  | node id label usage =>
    "  " ++ nodeName id ++ " [label=\"" ++ escape label ++ "\", shape=" ++ shape usage ++ "];\n"
  | edges id dependencies =>
    "  " ++ nodeName id ++ " -> \x7b " ++ " ".intercalate (dependencies.map nodeName) ++ " \x7d;\n"

/-- A graph as it is written, statement by statement. -/
def render (statements : List Statement) : String :=
  "digraph targets \x7b\n" ++ String.join (statements.map Statement.text) ++ "\x7d\n"

end Dot

namespace Store

def dotNodes (store : Store) : List Dot.Statement :=
  store.targets.map fun target => .node target.id target.shownName target.usage

def dotEdges (store : Store) : List Dot.Statement :=
  (store.targets.filter fun target => !target.dependencies.isEmpty).map fun target =>
    .edges target.id target.dependencies

def dotStatements (store : Store) : List Dot.Statement :=
  store.dotNodes ++ store.dotEdges

def dot (store : Store) : String := Dot.render store.dotStatements

end Store

end BuildGraph
