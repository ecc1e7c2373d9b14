import BuildGraph.Yaml.Content

/-! Reading a text that holds one document.

Before anything else two slips are looked for in the bare text: a stray closing bracket,
and a line with a comment that an unfinished line follows.
-/

set_option autoImplicit false

namespace BuildGraph.Yaml

open BuildGraph.Manifest (Value)

/-- A line that has content and a comment, and no sign of a key, a list or brackets. -/
def isCommentedScalar (line : List Char) : Bool :=
  match Text.before? '#' line with
  | none => false
  | some content =>
    !Text.isBlank content && !content.any (fun c => c == ':' || c == '[' || c == '\x7b')
      && !(['-', ' '].isPrefixOf (Text.trim content))

/-- A line that is neither indented nor marked and has no key. -/
def isLooseLine (line : List Char) : Bool :=
  match line with
  | [] => false
  | c :: _ =>
    !isBlank c && c != '#' && !(['-', '-', '-'].isPrefixOf line)
      && !(['.', '.', '.'].isPrefixOf line)
      && ((Text.before? ':' line).map Text.isBlank).getD true

/-- Whether a loose line follows a commented scalar. -/
def hasLooseLine : List (List Char) → Bool
  | line :: next :: rest =>
    (isCommentedScalar line && isLooseLine next) || hasLooseLine (next :: rest)
  | _ => false

/-- What may follow the root of the document: its end, and no other content. Faults after
the end do not matter. -/
def checkRest (stop : Option Error) (ended : Bool) : List Event → Except Error Unit
  | [] =>
    match stop, ended with
    | some error, false => .error error
    | _, _ => .ok ()
  | event :: rest =>
    match event.kind with
    | .documentEnd => checkRest stop true rest
    | .documentStart => checkRest stop ended rest
    | _ => .error (Problem.manyDocuments.atMark event.mark)

/-- The value of the only document; a stream without one is null. -/
def ofEvents (events : Stream Event) : Except Error Value :=
  match events.items with
  | [] =>
    match events.stop with
    | some error => .error error
    | none => .ok .null
  | _ :: rest => do
    let content := { events with items := rest }
    let (root, after) := Assembly.node (rest.length + 1) (.ofEvents content)
    let value ← root.value
    checkRest events.stop false after.events
    .ok value

/-- Read a text; a byte order mark in front of it is passed over. -/
def read (text : List Char) : Except Error Value :=
  let text := match text with
    | c :: rest => if c.toNat = 0xFEFF then rest else text
    | [] => []
  if Text.contains [']', ' ', ']'] text then .error ⟨.closingDelimiter, none⟩
  else if hasLooseLine (Text.lines text) then .error ⟨.inlineCommentBeforeScalar, none⟩
  else ofEvents (.ofTokens (.ofText text))

end BuildGraph.Yaml
