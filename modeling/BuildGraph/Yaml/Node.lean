import BuildGraph.Yaml.Event

/-! Nodes of a document, with every alias replaced by what it stands for.

A node that cannot be completed is `broken`: the stream stops there, or an alias stands
inside the node that it names. Whoever reads the nodes in order meets it in time.
-/

set_option autoImplicit false

namespace BuildGraph.Yaml

structure Scalar where
  style : Style
  text : String
  tag : Option String
  mark : Mark
  deriving DecidableEq, Repr

inductive Node where
  | scalar (content : Scalar)
  | sequence (mark : Mark) (items : List Node)
  | mapping (mark : Mark) (entries : List (Node × Node))
  | broken (error : Error)

namespace Node

def mark? : Node → Option Mark
  | scalar content => some content.mark
  | sequence mark _ => some mark
  | mapping mark _ => some mark
  | broken _ => none

mutual

/-- Fail with the first broken node inside, in order. -/
def intact : Node → Except Error Unit
  | scalar _ => .ok ()
  | sequence _ items => intactItems items
  | mapping _ entries => intactEntries entries
  | broken error => .error error

def intactItems : List Node → Except Error Unit
  | [] => .ok ()
  | item :: rest => do
    item.intact
    intactItems rest

def intactEntries : List (Node × Node) → Except Error Unit
  | [] => .ok ()
  | (key, value) :: rest => do
    key.intact
    value.intact
    intactEntries rest

end

end Node

/-- The events to come, and the nodes that anchors name; one that is not finished is `none`. -/
structure Assembly where
  events : List Event
  stop : Error
  anchors : List (Nat × Option Node)

namespace Assembly

def ofEvents (events : Stream Event) : Assembly :=
  ⟨events.items, events.stop.getD ⟨.unexpectedEnd, none⟩, []⟩

def name (assembly : Assembly) (anchor : Option Nat) (node : Option Node) : Assembly :=
  match anchor with
  | none => assembly
  | some number => { assembly with anchors := (number, node) :: assembly.anchors }

def named (assembly : Assembly) (number : Nat) (mark : Mark) : Node :=
  match assembly.anchors.lookup number with
  | some (some node) => node
  | _ => .broken ((Problem.unknownAnchor number).atMark mark)

/-- A folded scalar on the margin has content only if it is blank. -/
def scalar (content : Scalar) : Node :=
  if content.style = .folded ∧ content.mark.column = 0
      ∧ content.text.toList.any fun c => !(c == ' ' || c == '\n' || c == '\t' || c == '\r') then
    .broken (Problem.foldedIndentation.atMark content.mark)
  else .scalar content

mutual

/-- Take the node at the head of the events. -/
def node : Nat → Assembly → Node × Assembly
  | 0, assembly => (.broken assembly.stop, assembly)
  | fuel + 1, assembly =>
    match assembly.events with
    | [] => (.broken assembly.stop, assembly)
    | event :: rest =>
      let assembly := { assembly with events := rest }
      match event.kind with
      | .alias number => (assembly.named number event.mark, assembly)
      | .scalar style text anchor tag =>
        let node := scalar ⟨style, text, tag, event.mark⟩
        (node, assembly.name anchor (some node))
      | .sequenceStart anchor =>
        let (nodes, assembly) := items fuel (assembly.name anchor none)
        let node := Node.sequence event.mark nodes
        (node, assembly.name anchor (some node))
      | .mappingStart anchor =>
        let (nodes, assembly) := entries fuel (assembly.name anchor none)
        let node := Node.mapping event.mark nodes
        (node, assembly.name anchor (some node))
      | _ => (.broken assembly.stop, assembly)

def items : Nat → Assembly → List Node × Assembly
  | 0, assembly => ([.broken assembly.stop], assembly)
  | fuel + 1, assembly =>
    match assembly.events with
    | [] => ([.broken assembly.stop], assembly)
    | event :: rest =>
      if event.kind = .sequenceEnd then ([], { assembly with events := rest })
      else
        let (item, assembly) := node fuel assembly
        let (more, assembly) := items fuel assembly
        (item :: more, assembly)

def entries : Nat → Assembly → List (Node × Node) × Assembly
  | 0, assembly => ([(.broken assembly.stop, .broken assembly.stop)], assembly)
  | fuel + 1, assembly =>
    match assembly.events with
    | [] => ([(.broken assembly.stop, .broken assembly.stop)], assembly)
    | event :: rest =>
      if event.kind = .mappingEnd then ([], { assembly with events := rest })
      else
        let (key, assembly) := node fuel assembly
        let (value, assembly) := node fuel assembly
        let (more, assembly) := entries fuel assembly
        ((key, value) :: more, assembly)

end

end Assembly

end BuildGraph.Yaml
