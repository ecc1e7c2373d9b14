import BuildGraph.Yaml.Scalar

/-! From nodes to values.

Keys are taken as text and may not repeat. A merge key brings in the entries of other
mappings: they follow the mapping's own entries, those of later merges first, and only
where their key is not present yet. The value of an entry that is passed over may be
faulty.
-/

set_option autoImplicit false

namespace BuildGraph.Yaml

open BuildGraph.Manifest (Value)

/-- An entry that a merge offers. -/
structure Offer where
  key : Node
  value : Except Error Value

/-- What a mapping holds: its own entries and their keys, and the offers of its merges. -/
structure Entries where
  own : List (String × Value)
  keys : List Scalar
  offers : List Offer

/-- The own entries of a mapping that is merged into another, and what it merges itself. -/
structure Offers where
  own : List Offer
  more : List Offer

namespace Node

/-- The key of an entry; anything but a scalar is refused after it has been read. -/
def keyScalar (node : Node) : Except Error Scalar :=
  match node with
  | scalar content => .ok content
  | broken error => .error error
  | other => do
    other.intact
    .error ⟨.unexpected "string scalar", other.mark?.map Mark.location⟩

def isMergeKey : Node → Bool
  | scalar content => content.isMergeKey
  | _ => false

end Node

namespace Offer

/-- Take the offers whose key is not present. -/
def takeMissing (keys : List Scalar) : List Offer → Except Error (List (String × Value))
  | [] => .ok []
  | offer :: rest => do
    let key ← offer.key.keyScalar
    if keys.any key.sameKey then takeMissing keys rest
    else
      let name ← key.keyText
      let value ← offer.value
      let more ← takeMissing (key :: keys) rest
      .ok ((name, value) :: more)

end Offer

namespace Node

/-- Set an entry; a name that is present keeps its place. -/
def setEntry (entries : List (String × Value)) (entry : String × Value) :
    List (String × Value) :=
  if entries.any fun (name, _) => name == entry.1 then
    entries.map fun (name, value) => if name = entry.1 then entry else (name, value)
  else entries ++ [entry]

def object (entries : List (String × Value)) : Value := .object (entries.foldl setEntry [])

mutual

def value : Node → Except Error Value
  | scalar content => content.value
  | broken error => .error error
  | sequence _ nodes => (values nodes).map .array
  | mapping _ nodes => do
    let found ← entries [] nodes
    let merged ← Offer.takeMissing found.keys found.offers
    .ok (object (found.own ++ merged))

def values : List Node → Except Error (List Value)
  | [] => .ok []
  | node :: rest => do
    let first ← node.value
    let more ← values rest
    .ok (first :: more)

/-- Read entries in order; `keys` are those before. -/
def entries (keys : List Scalar) : List (Node × Node) → Except Error Entries
  | [] => .ok ⟨[], keys, []⟩
  | (key, node) :: rest => do
    let key ← key.keyScalar
    if key.isMergeKey then
      let offers ← node.offers
      let found ← entries keys rest
      .ok { found with offers := found.offers ++ offers }
    else if keys.any key.sameKey then
      .error ((Problem.duplicateKey key.text).atMark key.mark)
    else
      let name ← key.keyText
      let value ← node.value
      let found ← entries (key :: keys) rest
      .ok { found with own := (name, value) :: found.own }

/-- What a node offers as the value of a merge key. -/
def offers : Node → Except Error (List Offer)
  | scalar content =>
    if content.isNullish then .ok []
    else .error (Problem.mergeValue.atMark content.mark)
  | broken error => .error error
  | sequence _ nodes => offersOfItems nodes
  | mapping _ nodes => (offersOfEntries nodes).map fun found => found.own ++ found.more

def offersOfItems : List Node → Except Error (List Offer)
  | [] => .ok []
  | node :: rest => do
    let first ← node.offers
    let later ← offersOfItems rest
    .ok (later ++ first)

def offersOfEntries : List (Node × Node) → Except Error Offers
  | [] => .ok ⟨[], []⟩
  | (key, node) :: rest => do
    key.intact
    if key.isMergeKey then
      let inner ← node.offers
      let found ← offersOfEntries rest
      .ok { found with more := found.more ++ inner }
    else
      node.intact
      let found ← offersOfEntries rest
      .ok { found with own := ⟨key, node.value⟩ :: found.own }

end

end Node

end BuildGraph.Yaml
