import BuildGraph.Yaml.Token.Lexer

/-! The structure of a YAML stream as a sequence of events.

`Expected` says what the grammar waits for; a stack of it replaces recursion. An event is
made from the tokens at hand, and what follows it is pushed in its place. A node that was
left out is an empty scalar.
-/

set_option autoImplicit false

namespace BuildGraph.Yaml

namespace Event

/-- Anchors have a number each, from one in order of appearance. -/
inductive Kind where
  | documentStart
  | documentEnd
  | alias (anchor : Nat)
  | scalar (style : Style) (text : String) (anchor : Option Nat) (tag : Option String)
  | sequenceStart (anchor : Option Nat)
  | sequenceEnd
  | mappingStart (anchor : Option Nat)
  | mappingEnd
  deriving DecidableEq, Repr

end Event

structure Event where
  kind : Event.Kind
  mark : Mark
  deriving DecidableEq, Repr

/-- A node that was left out. -/
def Event.omitted (mark : Mark) : Event := ⟨.scalar .plain "~" none none, mark⟩

/-- What may come next. `first` tells that no comma is due, and a document is `bare` when it
may begin without a marker. -/
inductive Expected where
  | document (bare : Bool)
  | documentContent
  | documentEnd
  | blockNode
  | blockEntry
  | indentlessEntry
  | blockKey
  | blockValue
  | flowEntry (first : Bool)
  | pairKey
  | pairValue
  | pairEnd (mark : Mark)
  | flowKey (first : Bool)
  | flowValue
  | flowNoValue

/-- The tokens to come, what is expected of them, and the anchors so far. -/
structure Grammar where
  tokens : List Token
  stop : Error
  expected : List Expected
  anchors : List (String × Nat)

namespace Grammar

/-- The result of a step, which is empty at the end of the stream. -/
abbrev Step := Except Error (Option (Event × Grammar))

def ofTokens (tokens : Stream Token) : Grammar where
  tokens := tokens.items
  stop := tokens.stop.getD ⟨.unexpectedEnd, none⟩
  expected := [.document true]
  anchors := []

/-- The next token, or the reason why there is none. -/
def peek (grammar : Grammar) : Except Error Token :=
  match grammar.tokens with
  | [] => .error grammar.stop
  | token :: _ => .ok token

def skip (grammar : Grammar) : Grammar := { grammar with tokens := grammar.tokens.tail }

def expect (grammar : Grammar) (next : List Expected) : Grammar :=
  { grammar with expected := next ++ grammar.expected }

def emit (grammar : Grammar) (kind : Event.Kind) (mark : Mark) : Step :=
  .ok (some (⟨kind, mark⟩, grammar))

def emitOmitted (grammar : Grammar) (mark : Mark) : Step :=
  .ok (some (Event.omitted mark, grammar))

def fail (token : Token) (problem : Problem) : Step := .error (problem.atMark token.mark)

def skipDocumentEnds (grammar : Grammar) : List Token → Grammar
  | ⟨.documentEnd, _⟩ :: rest => skipDocumentEnds { grammar with tokens := rest } rest
  | _ => grammar

def skipDirectives (grammar : Grammar) : List Token → Grammar
  | ⟨.directive, _⟩ :: rest => skipDirectives { grammar with tokens := rest } rest
  | _ => grammar

/-- The properties in front of a node. -/
structure Properties where
  anchor : Option Nat
  tag : Option String

def coreTag (suffix : String) : String := "tag:yaml.org,2002:" ++ suffix

/-- The full name of a tag. -/
def tagName? (handle suffix : String) : Option String :=
  if handle = "" then some suffix
  else if handle = "!" then some ("!" ++ suffix)
  else if handle = "!!" then some (coreTag suffix)
  else none

def register (grammar : Grammar) (name : String) : Nat × Grammar :=
  let number := grammar.anchors.length + 1
  (number, { grammar with anchors := (name, number) :: grammar.anchors })

def readTag (handle suffix : String) (mark : Mark) : Except Error String :=
  match tagName? handle suffix with
  | some tag => .ok tag
  | none => .error (Problem.undeclaredTagHandle.atMark mark)

/-- At most one anchor and one tag, in either order. -/
def properties (grammar : Grammar) : Except Error (Properties × Grammar) := do
  let token ← grammar.peek
  match token.kind with
  | .anchor name =>
    let (number, grammar) := grammar.skip.register name
    match (← grammar.peek).kind with
    | .tag handle suffix =>
      .ok (⟨some number, some (← readTag handle suffix token.mark)⟩, grammar.skip)
    | _ => .ok (⟨some number, none⟩, grammar)
  | .tag handle suffix =>
    let tag ← readTag handle suffix token.mark
    let grammar := grammar.skip
    match (← grammar.peek).kind with
    | .anchor name =>
      let (number, grammar) := grammar.skip.register name
      .ok (⟨some number, some tag⟩, grammar)
    | _ => .ok (⟨none, some tag⟩, grammar)
  | _ => .ok (⟨none, none⟩, grammar)

/-- Read a node. A block collection needs `block`, and a list without indentation of its
own `indentless`. -/
def node (grammar : Grammar) (block indentless : Bool) : Step := do
  let token ← grammar.peek
  match token.kind with
  | .alias name =>
    match grammar.anchors.lookup name with
    | none => fail token .unknownAnchorName
    | some number => grammar.skip.emit (.alias number) token.mark
  | _ =>
    let (found, grammar) ← grammar.properties
    let token ← grammar.peek
    let opened (kind : Event.Kind) (next : Expected) : Step :=
      (grammar.skip.expect [next]).emit kind token.mark
    match token.kind, block, indentless with
    | .blockEntry, _, true =>
      (grammar.expect [.indentlessEntry]).emit (.sequenceStart found.anchor) token.mark
    | .scalar style text, _, _ =>
      grammar.skip.emit (.scalar style text found.anchor found.tag) token.mark
    | .flowSequenceStart, _, _ => opened (.sequenceStart found.anchor) (.flowEntry true)
    | .flowMappingStart, _, _ => opened (.mappingStart found.anchor) (.flowKey true)
    | .blockSequenceStart, true, _ => opened (.sequenceStart found.anchor) .blockEntry
    | .blockMappingStart, true, _ => opened (.mappingStart found.anchor) .blockKey
    | _, _, _ =>
      if found.anchor.isSome || found.tag.isSome then
        grammar.emit (.scalar .plain "" found.anchor found.tag) token.mark
      else fail token .expectedNode

def explicitDocument (grammar : Grammar) : Step := do
  let grammar := grammar.skipDirectives grammar.tokens
  let token ← grammar.peek
  match token.kind with
  | .documentStart =>
    (grammar.skip.expect [.documentContent, .documentEnd]).emit .documentStart token.mark
  | _ => fail token .expectedDocumentStart

def document (grammar : Grammar) (bare : Bool) : Step := do
  let grammar := grammar.skipDocumentEnds grammar.tokens
  let token ← grammar.peek
  match token.kind with
  | .streamEnd => .ok none
  | .directive | .documentStart => grammar.explicitDocument
  | _ =>
    if bare then (grammar.expect [.blockNode, .documentEnd]).emit .documentStart token.mark
    else grammar.explicitDocument

def documentContent (grammar : Grammar) : Step := do
  let token ← grammar.peek
  match token.kind with
  | .directive | .documentStart | .documentEnd | .streamEnd => grammar.emitOmitted token.mark
  | _ => grammar.node true false

def documentEnd (grammar : Grammar) : Step := do
  let token ← grammar.peek
  match token.kind with
  | .documentEnd => (grammar.skip.expect [.document true]).emit .documentEnd token.mark
  | .directive => fail token .directiveWithoutDocumentEnd
  | _ => (grammar.expect [.document false]).emit .documentEnd token.mark

def blockEntry (grammar : Grammar) : Step := do
  let token ← grammar.peek
  match token.kind with
  | .blockEnd => grammar.skip.emit .sequenceEnd token.mark
  | .blockEntry =>
    let grammar := grammar.skip.expect [.blockEntry]
    match (← grammar.peek).kind with
    | .blockEntry | .blockEnd => grammar.emitOmitted token.mark
    | _ => grammar.node true false
  | _ => fail token .expectedEntry

def indentlessEntry (grammar : Grammar) : Step := do
  let token ← grammar.peek
  match token.kind with
  | .blockEntry =>
    let grammar := grammar.skip.expect [.indentlessEntry]
    match (← grammar.peek).kind with
    | .blockEntry | .key | .value | .blockEnd => grammar.emitOmitted token.mark
    | _ => grammar.node true false
  | _ => grammar.emit .sequenceEnd token.mark

def blockKey (grammar : Grammar) : Step := do
  let token ← grammar.peek
  match token.kind with
  | .key =>
    let grammar := grammar.skip.expect [.blockValue]
    let next ← grammar.peek
    match next.kind with
    | .key | .value | .blockEnd => grammar.emitOmitted next.mark
    | _ => grammar.node true true
  | .value => (grammar.expect [.blockValue]).emitOmitted token.mark
  | .blockEnd => grammar.skip.emit .mappingEnd token.mark
  | _ => fail token .expectedKey

def blockValue (grammar : Grammar) : Step := do
  let token ← grammar.peek
  let grammar := grammar.expect [.blockKey]
  match token.kind with
  | .value =>
    let grammar := grammar.skip
    match (← grammar.peek).kind with
    | .key | .value | .blockEnd => grammar.emitOmitted token.mark
    | _ => grammar.node true true
  | _ => grammar.emitOmitted token.mark

/-- What follows the comma, if any, in a bracketed list. -/
def flowItem (grammar : Grammar) : Step := do
  let token ← grammar.peek
  match token.kind with
  | .flowSequenceEnd => grammar.skip.emit .sequenceEnd token.mark
  | .key =>
    (grammar.skip.expect [.pairKey, .flowEntry false]).emit (.mappingStart none) token.mark
  | _ => (grammar.expect [.flowEntry false]).node false false

def flowEntry (grammar : Grammar) (first : Bool) : Step := do
  let token ← grammar.peek
  match token.kind, first with
  | .flowSequenceEnd, _ => grammar.skip.emit .sequenceEnd token.mark
  | .flowEntry, false => grammar.skip.flowItem
  | _, true => grammar.flowItem
  | _, false => fail token .expectedSequenceEnd

def pairKey (grammar : Grammar) : Step := do
  let token ← grammar.peek
  let grammar := grammar.expect [.pairValue]
  match token.kind with
  | .value | .flowEntry | .flowSequenceEnd => grammar.skip.emitOmitted token.mark
  | _ => grammar.node false false

def pairValue (grammar : Grammar) : Step := do
  let token ← grammar.peek
  match token.kind with
  | .value =>
    let grammar := grammar.skip
    let next ← grammar.peek
    let grammar := grammar.expect [.pairEnd next.mark]
    match next.kind with
    | .flowEntry | .flowSequenceEnd => grammar.emitOmitted next.mark
    | _ => grammar.node false false
  | _ => (grammar.expect [.pairEnd token.mark]).emitOmitted token.mark

/-- What follows the comma, if any, in braces. -/
def flowPair (grammar : Grammar) : Step := do
  let token ← grammar.peek
  match token.kind with
  | .key =>
    let grammar := grammar.skip.expect [.flowValue, .flowKey false]
    let next ← grammar.peek
    match next.kind with
    | .value | .flowEntry | .flowMappingEnd => grammar.emitOmitted next.mark
    | _ => grammar.node false false
  | .value => (grammar.expect [.flowValue, .flowKey false]).emitOmitted token.mark
  | .flowMappingEnd => grammar.skip.emit .mappingEnd token.mark
  | _ => (grammar.expect [.flowNoValue, .flowKey false]).node false false

def flowKey (grammar : Grammar) (first : Bool) : Step := do
  let token ← grammar.peek
  match token.kind, first with
  | .flowMappingEnd, _ => grammar.skip.emit .mappingEnd token.mark
  | .flowEntry, false => grammar.skip.flowPair
  | _, true => grammar.flowPair
  | _, false => fail token .expectedMappingEnd

def flowValue (grammar : Grammar) : Step := do
  let token ← grammar.peek
  match token.kind with
  | .value =>
    let grammar := grammar.skip
    match (← grammar.peek).kind with
    | .flowEntry | .flowMappingEnd => grammar.emitOmitted token.mark
    | _ => grammar.node false false
  | _ => grammar.emitOmitted token.mark

def flowNoValue (grammar : Grammar) : Step := do
  grammar.emitOmitted (← grammar.peek).mark

def step (grammar : Grammar) : Expected → Step
  | .document bare => grammar.document bare
  | .documentContent => grammar.documentContent
  | .documentEnd => grammar.documentEnd
  | .blockNode => grammar.node true false
  | .blockEntry => grammar.blockEntry
  | .indentlessEntry => grammar.indentlessEntry
  | .blockKey => grammar.blockKey
  | .blockValue => grammar.blockValue
  | .flowEntry first => grammar.flowEntry first
  | .pairKey => grammar.pairKey
  | .pairValue => grammar.pairValue
  | .pairEnd mark => grammar.emit .mappingEnd mark
  | .flowKey first => grammar.flowKey first
  | .flowValue => grammar.flowValue
  | .flowNoValue => grammar.flowNoValue

/-- Make events while something is expected. No token yields more than four. -/
def run : Nat → Grammar → Stream Event
  | 0, _ => .ended
  | fuel + 1, grammar =>
    match grammar.expected with
    | [] => .ended
    | next :: rest =>
      match step { grammar with expected := rest } next with
      | .error e => .stopped e
      | .ok none => .ended
      | .ok (some (event, grammar)) => (run fuel grammar).cons event

end Grammar

/-- The events of a token stream; the token that starts the stream announces nothing. -/
def Stream.ofTokens (tokens : Stream Token) : Stream Event :=
  let content := { tokens with items := tokens.items.drop 1 }
  Grammar.run (4 * tokens.items.length + 8) (.ofTokens content)

end BuildGraph.Yaml
