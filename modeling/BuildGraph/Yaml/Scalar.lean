import BuildGraph.Manifest.Value
import BuildGraph.Text.Base64
import BuildGraph.Text.Blank
import BuildGraph.Yaml.Node

/-! What a scalar means.

A tag decides first. Without one that does, a plain scalar is tried as a truth value, then
as an integer, then as a floating-point number, and is text otherwise. Nulls that are
written out stay text, and so does everything in quotes or blocks.
-/

set_option autoImplicit false

namespace BuildGraph.Yaml.Scalar

open BuildGraph.Manifest (Number Value)

/-- The tags with a meaning. `typed` are those of numbers and truth values. -/
inductive TagKind where
  | none
  | null
  | binary
  | typed (name : String)
  | other (name : String)
  deriving DecidableEq, Repr

def tagKind (tag : Option String) : TagKind :=
  match tag with
  | .none => .none
  | some name =>
    if name = Grammar.coreTag "null" then .null
    else if name = Grammar.coreTag "binary" then .binary
    else if name ∈ ["int", "bool", "float"].map Grammar.coreTag then .typed name
    else .other name

/-! ### Plain scalars -/

def bool? (word : List Char) : Option Bool :=
  let word := String.ofList (word.map Char.toLower)
  if word ∈ ["true", "yes", "y", "on"] then some true
  else if word ∈ ["false", "no", "n", "off"] then some false
  else none

/-- The base that a number's first characters announce, and the digits after them. -/
def splitBase : List Char → Nat × List Char
  | '0' :: c :: rest =>
    match c.toLower with
    | 'x' => (16, rest)
    | 'o' => (8, rest)
    | 'b' => (2, rest)
    | _ => (10, '0' :: c :: rest)
  | digits => (10, digits)

/-- Digits of a base, between which underscores may stand. -/
def natural? (base : Nat) (text : List Char) : Option Nat :=
  let digits := text.filter (· ≠ '_')
  if digits.isEmpty then none
  else digits.foldlM (fun value c => do
    let digit ← hexValue? c
    if digit < base then some (base * value + digit) else none) 0

/-- An integer of 64 bits; a negative one has a sign bit among them. -/
def int? (word : List Char) : Option Int := do
  let (negative, rest) := Decimal.splitSign word
  let (base, digits) := splitBase rest
  let n ← natural? base digits
  if negative then
    if 2 * n ≤ UInt64.size then some (-n) else none
  else
    if n < UInt64.size then some n else none

/-- A floating-point number; the names may follow a point. -/
def floating? (word : List Char) : Option Decimal.Floating :=
  let (negative, rest) := Decimal.splitSign word
  let name := String.ofList (rest.map Char.toLower)
  if name = ".inf" then some (.infinite negative)
  else if name = ".nan" then some .nan
  else Decimal.read word

/-- Numbers that are not finite are kept as text. -/
def ofFloating : Decimal.Floating → Value
  | .finite negative magnitude => .number (.float negative magnitude)
  | .infinite negative => .string (if negative then "-.inf" else ".inf")
  | .nan => .string ".nan"

def plainValue (text : String) : Value :=
  let word := Text.trim text.toList
  match bool? word with
  | some value => .bool value
  | none =>
    match int? word with
    | some value => .number (.int value)
    | none =>
      match floating? word with
      | some value => ofFloating value
      | none => .string text

/-! ### Tagged scalars -/

def binaryText (scalar : Scalar) : Except Error String :=
  let written := scalar.text.toList.filter fun c =>
    !(c == ' ' || c == '\t' || c == '\n' || c == '\r' || c == '\x0c')
  match Base64.decode? written with
  | none => .error (Problem.binaryBase64.atMark scalar.mark)
  | some bytes =>
    match Utf8.strict? bytes with
    | none => .error (Problem.binaryText.atMark scalar.mark)
    | some text => .ok text

/-- The text of a key, whatever its style. -/
def keyText (scalar : Scalar) : Except Error String :=
  match tagKind scalar.tag with
  | .binary => scalar.binaryText
  | .typed _ => .error (Problem.taggedScalar.atMark scalar.mark)
  | _ => .ok scalar.text

def value (scalar : Scalar) : Except Error Value :=
  match tagKind scalar.tag with
  | .null => .ok .null
  | .binary => scalar.binaryText.map .string
  | .typed _ => .error (Problem.taggedScalar.atMark scalar.mark)
  | _ => .ok (if scalar.style = .plain then plainValue scalar.text else .string scalar.text)

/-- Whether a merge key may take nothing from this scalar. -/
def isNullish (scalar : Scalar) : Bool :=
  tagKind scalar.tag = .null
    || (scalar.style = .plain
      && String.ofList (scalar.text.toList.map Char.toLower) ∈ ["", "~", "null"])

def isMergeKey (scalar : Scalar) : Bool :=
  scalar.style = .plain && scalar.tag.isNone && scalar.text == "<<"

/-- Two keys are the same when their text and the kind of their tag are. -/
def sameKey (a b : Scalar) : Bool := a.text == b.text && tagKind a.tag = tagKind b.tag

end BuildGraph.Yaml.Scalar
