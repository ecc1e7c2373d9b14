import BuildGraph.Event
import BuildGraph.Manifest.Value

/-! The events of a document that is given as a value.

An object is a mapping of targets. What stands at a key is a nested mapping, a list of
names, one name as a list of its own, or nothing.
-/

set_option autoImplicit false

namespace BuildGraph.Manifest

/-- What a value must not be. -/
inductive ShapeFault where
  | root
  | listItem
  deriving DecidableEq, Repr

def ShapeFault.text : ShapeFault → String
  | root => "the document root must map target names"
  | listItem => "dependency lists may only contain names"

/-- A fault and the keys that lead to it, joined by points. -/
structure ShapeError where
  path : String
  fault : ShapeFault
  deriving DecidableEq, Repr

namespace ShapeError

def code : String := "targetgraph::manifest::shape"

def help : String :=
  "targets map to nothing, a dependency name, a list of names, or nested targets"

/-- The message for a file that is shown as `name`. -/
def message (name : String) (error : ShapeError) : String :=
  name ++ ": " ++ error.fault.text ++ " at '" ++ error.path ++ "'"

end ShapeError

/-- The path of a key below another path. -/
def childPath (path key : String) : String :=
  if path.isEmpty then key else path ++ "." ++ key

/-- The name that a list item stands for. -/
def itemName? (item : Value) : Option String :=
  if item.isNothing then none else item.leafText?

def itemEvents (path : String) : List Value → Except ShapeError (List Event)
  | [] => .ok []
  | item :: rest =>
    match itemName? item with
    | none => .error ⟨path, .listItem⟩
    | some name => do
      let more ← itemEvents path rest
      .ok (.scalar name :: more)

def listEvents (path : String) (items : List Value) : Except ShapeError (List Event) := do
  let inner ← itemEvents path items
  .ok (.listStart :: inner ++ [.listEnd])

mutual

/-- The events of what stands at the key with this path. -/
def valueEvents (path : String) : Value → Except ShapeError (List Event)
  | .object entries => do
    let inner ← entryEvents path entries
    .ok (.mappingStart :: inner ++ [.mappingEnd])
  | .array items => listEvents path items
  | value => if value.isNothing then .ok [] else listEvents path [value]

/-- The events of the entries of an object with this path. -/
def entryEvents (path : String) : List (String × Value) → Except ShapeError (List Event)
  | [] => .ok []
  | (key, value) :: rest => do
    let own ← valueEvents (childPath path key) value
    let more ← entryEvents path rest
    .ok (.scalar key :: own ++ more)

end

/-- The events between the start and the end of a document. -/
def rootBody (root : Value) : Except ShapeError (List Event) :=
  match root with
  | .object _ => valueEvents "" root
  | _ => if root.isNothing then .ok [] else .error ⟨"", .root⟩

def rootEvents (root : Value) : Except ShapeError (List Event) := do
  let body ← rootBody root
  .ok (.documentStart :: body ++ [.documentEnd])

end BuildGraph.Manifest
