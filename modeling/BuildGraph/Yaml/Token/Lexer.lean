import BuildGraph.Yaml.Token.Block
import BuildGraph.Yaml.Token.Quoted

/-! From text to tokens.

A key without an indicator shows only at its colon, so tokens wait in a queue while
something before them may still turn out to be a key; the key token, and the start of the
mapping it opens, are then put in front. Indentation opens and closes block collections.
-/

set_option autoImplicit false

namespace BuildGraph.Yaml

/-- A place where a key may have begun. `number` counts the tokens before it, and
`required` tells that nothing but a key fits there. -/
structure KeyCandidate where
  possible : Bool
  required : Bool
  number : Nat
  mark : Mark

def KeyCandidate.none : KeyCandidate := ⟨false, false, 0, ⟨0, 0, 0⟩⟩

/-- An enclosing indentation, and whether what it gave way to ends with a token. -/
structure Indent where
  column : Int
  endsBlock : Bool

/-- Where a bracketed list is with respect to a pair written without braces. -/
inductive ListPair where
  | possible
  | inside
  deriving DecidableEq

/-- The state of reading. `released` counts the tokens that have left the queue, `keys` has
a candidate per open bracket and one for the block around, `pairs` an entry per open list.
A colon at `adjacentValue` needs no blank after it. -/
structure Lexer where
  cursor : Cursor
  queue : List Token
  released : Nat
  indent : Int
  indents : List Indent
  keyAllowed : Bool
  keys : List KeyCandidate
  flowDepth : Nat
  adjacentValue : Nat
  inFlowMapping : Bool
  pairs : List ListPair
  ended : Bool

namespace Lexer

def maxFlowDepth : Nat := 255

def maxKeyLength : Nat := 1024

/-- A fresh reader; the start of the stream is its first token. -/
def ofText (text : List Char) : Lexer where
  cursor := .ofText text
  queue := [⟨.streamStart, .start⟩]
  released := 0
  indent := -1
  indents := []
  keyAllowed := true
  keys := [.none]
  flowDepth := 0
  adjacentValue := 0
  inFlowMapping := false
  pairs := []
  ended := false

def mark (lexer : Lexer) : Mark := lexer.cursor.mark

def inFlow (lexer : Lexer) : Bool := lexer.flowDepth != 0

def fail {α : Type} (lexer : Lexer) (problem : Problem) : Except Error α :=
  .error (problem.atMark lexer.mark)

def advance (lexer : Lexer) (n : Nat) : Lexer :=
  { lexer with cursor := lexer.cursor.advance n }

def push (lexer : Lexer) (kind : Token.Kind) (mark : Mark) : Lexer :=
  { lexer with queue := lexer.queue ++ [⟨kind, mark⟩] }

/-- Put a token in front of the one with the given number. -/
def insert (lexer : Lexer) (number : Nat) (kind : Token.Kind) (mark : Mark) : Lexer :=
  { lexer with queue := lexer.queue.insertIdx (number - lexer.released) ⟨kind, mark⟩ }

def allowKey (lexer : Lexer) (allowed : Bool) : Lexer := { lexer with keyAllowed := allowed }

/-- Pass blanks up to the end of the line, and a comment. -/
def skipToLineEnd (lexer : Lexer) (withTabs : Bool) : Except Error (Lexer × Cursor.Gap) :=
  (lexer.cursor.skipToLineEnd withTabs).map fun gap =>
    ({ lexer with cursor := gap.cursor }, gap)

def skipBlanks (lexer : Lexer) : Except Error Lexer :=
  (lexer.skipToLineEnd true).map (·.1)

/-! ### Keys -/

def key (lexer : Lexer) : KeyCandidate := lexer.keys.headD .none

def setKey (lexer : Lexer) (candidate : KeyCandidate) : Lexer :=
  { lexer with keys := candidate :: lexer.keys.tail }

def endsBlock (lexer : Lexer) : Bool :=
  match lexer.indents with
  | [] => false
  | indent :: _ => indent.endsBlock

/-- Remember that a key may begin here. -/
def saveKey (lexer : Lexer) : Lexer :=
  if lexer.keyAllowed then
    let required := !lexer.inFlow && lexer.indent == lexer.cursor.column && lexer.endsBlock
    lexer.setKey ⟨true, required, lexer.released + lexer.queue.length, lexer.mark⟩
  else lexer

/-- Give up the candidate of the current level. -/
def dropKey (lexer : Lexer) : Except Error Lexer :=
  let candidate := lexer.key
  if candidate.possible && candidate.required then lexer.fail .keyRequired
  else .ok (lexer.setKey { candidate with possible := false })

/-- Give up the candidates that lie too far back: on an earlier line, or too long. -/
def dropStaleKeys (lexer : Lexer) : Except Error Lexer := do
  let keys ← lexer.keys.mapM fun candidate =>
    if candidate.possible && !lexer.inFlow && (candidate.mark.line < lexer.mark.line
        || candidate.mark.index + maxKeyLength < lexer.mark.index) then
      if candidate.required then lexer.fail .keyWithoutColon
      else .ok { candidate with possible := false }
    else .ok candidate
  .ok { lexer with keys := keys }

/-! ### Indentation -/

/-- Open a block collection at a column, unless its indentation is open already. -/
def openBlock (lexer : Lexer) (column : Nat) (number : Option Nat) (kind : Token.Kind)
    (mark : Mark) : Lexer :=
  if lexer.inFlow then lexer
  else
    let lexer := match lexer.indents with
      | ⟨outer, false⟩ :: rest =>
        if lexer.indent ≤ (column : Int) then { lexer with indent := outer, indents := rest }
        else lexer
      | _ => lexer
    if lexer.indent < (column : Int) then
      let lexer := { lexer with
        indents := ⟨lexer.indent, true⟩ :: lexer.indents
        indent := Int.ofNat column }
      match number with
      | some number => lexer.insert number kind mark
      | none => lexer.push kind mark
    else lexer

def closeBlocksFrom (column : Int) (lexer : Lexer) : List Indent → Lexer
  | [] => lexer
  | ⟨outer, endsBlock⟩ :: rest =>
    if column < lexer.indent then
      let lexer := { lexer with indent := outer, indents := rest }
      closeBlocksFrom column (if endsBlock then lexer.push .blockEnd lexer.mark else lexer) rest
    else lexer

/-- Close the block collections that are indented further than a column. -/
def closeBlocks (lexer : Lexer) (column : Int) : Lexer :=
  if lexer.inFlow then lexer else closeBlocksFrom column lexer lexer.indents

/-- Ask the next lines for one column more, without opening a collection. -/
def indentByOne (lexer : Lexer) : Lexer :=
  if !lexer.inFlow && lexer.endsBlock then
    { lexer with indents := ⟨lexer.indent, false⟩ :: lexer.indents, indent := lexer.indent + 1 }
  else lexer

def dropExtraIndentsFrom (lexer : Lexer) : List Indent → Lexer
  | ⟨outer, false⟩ :: rest =>
    dropExtraIndentsFrom { lexer with indent := outer, indents := rest } rest
  | _ => lexer

/-- Take back what `indentByOne` asked for. -/
def dropExtraIndents (lexer : Lexer) : Lexer := dropExtraIndentsFrom lexer lexer.indents

/-! ### Between tokens -/

/-- Pass blanks, comments and line breaks. A line break allows a key in a block. -/
def skipToToken : Nat → Lexer → Except Error Lexer
  | 0, lexer => .ok lexer
  | fuel + 1, lexer => do
    let cursor := lexer.cursor
    if cursor.atBreak then
      let lexer := { lexer with cursor := cursor.advanceBreak }
      skipToToken fuel (if lexer.inFlow then lexer else lexer.allowKey true)
    else if cursor.peek == '\t' && !lexer.indents.isEmpty && cursor.inIndent
        && cursor.column < lexer.indent then
      let lexer ← lexer.skipBlanks
      if lexer.cursor.atBreakOrEnd then skipToToken fuel lexer
      else lexer.fail .tabIndentation
    else if cursor.atBlank then skipToToken fuel (lexer.advance 1)
    else if cursor.peek == '#' then skipToToken fuel { lexer with cursor := cursor.toLineEnd }
    else .ok lexer

def skipToNextToken (lexer : Lexer) : Except Error Lexer :=
  skipToToken (lexer.cursor.rest.length + 1) lexer

/-- Pass what may stand between a key indicator and its key. -/
def skipAfterKey : Nat → Bool → Lexer → Except Error Lexer
  | 0, _, lexer => .ok lexer
  | fuel + 1, passed, lexer =>
    let cursor := lexer.cursor
    if cursor.peek == ' ' then skipAfterKey fuel true (lexer.advance 1)
    else if cursor.atBreak then
      let lexer := { lexer with cursor := cursor.advanceBreak }
      skipAfterKey fuel true (if lexer.inFlow then lexer else lexer.allowKey true)
    else if cursor.peek == '#' then
      skipAfterKey fuel passed { lexer with cursor := cursor.toLineEnd }
    else if passed then .ok lexer
    else lexer.fail .noBlankAfterKey

/-! ### Tokens -/

def streamEnd (lexer : Lexer) : Except Error Lexer := do
  let mark := lexer.mark
  let ending : Mark := if mark.column == 0 then mark else ⟨mark.index, mark.line + 1, 0⟩
  let lexer := { lexer with cursor := { lexer.cursor with mark := ending } }
  if lexer.keys.any fun candidate => candidate.possible && candidate.required then
    lexer.fail .keyRequired
  else
    let keys := lexer.keys.map fun candidate => { candidate with possible := false }
    let lexer := (closeBlocks { lexer with keys := keys } (-1)).allowKey false
    .ok { lexer.push .streamEnd lexer.mark with ended := true }

def directive (lexer : Lexer) : Except Error Lexer := do
  let lexer ← (lexer.closeBlocks (-1)).dropKey
  let start := lexer.mark
  let lexer := { lexer with cursor := lexer.cursor.toLineEnd }
  .ok ((lexer.allowKey false).push .directive start)

def documentIndicator (lexer : Lexer) (kind : Token.Kind) : Except Error Lexer := do
  let lexer ← (lexer.closeBlocks (-1)).dropKey
  let start := lexer.mark
  .ok (((lexer.allowKey false).advance 3).push kind start)

def documentEnd (lexer : Lexer) : Except Error Lexer := do
  let lexer ← (← lexer.documentIndicator .documentEnd).skipBlanks
  if lexer.cursor.atBreakOrEnd then .ok lexer else lexer.fail .contentAfterDocumentEnd

/-- End a pair without braces at a comma or at the end of its list. -/
def endPair (lexer : Lexer) : Lexer :=
  match lexer.pairs with
  | .inside :: rest =>
    { lexer.push .flowMappingEnd lexer.mark with
      inFlowMapping := false
      pairs := .possible :: rest }
  | _ => lexer

def flowStart (lexer : Lexer) (kind : Token.Kind) : Except Error Lexer := do
  let lexer := lexer.saveKey.indentByOne
  if maxFlowDepth ≤ lexer.flowDepth then lexer.fail .nestingTooDeep
  else
    let start := lexer.mark
    let lexer := { lexer with
      keys := .none :: lexer.keys
      flowDepth := lexer.flowDepth + 1
      keyAllowed := true }
    let lexer := if kind = .flowMappingStart then { lexer with inFlowMapping := true }
      else { lexer with pairs := .possible :: lexer.pairs }
    .ok ((← (lexer.advance 1).skipBlanks).push kind start)

def flowEnd (lexer : Lexer) (kind : Token.Kind) : Except Error Lexer := do
  let lexer ← lexer.dropKey
  let lexer := if lexer.inFlow then
      { lexer with flowDepth := lexer.flowDepth - 1, keys := lexer.keys.tail }
    else lexer
  let lexer := lexer.allowKey false
  let lexer := if kind = .flowSequenceEnd then
      let lexer := lexer.endPair
      { lexer with pairs := lexer.pairs.tail }
    else lexer
  let start := lexer.mark
  let lexer ← (lexer.advance 1).skipBlanks
  let lexer := if lexer.inFlow then { lexer with adjacentValue := lexer.mark.index } else lexer
  .ok (lexer.push kind start)

def flowEntry (lexer : Lexer) : Except Error Lexer := do
  let lexer := ((← lexer.dropKey).allowKey true).endPair
  let start := lexer.mark
  .ok ((← (lexer.advance 1).skipBlanks).push .flowEntry start)

/-- A dash. What stands before it must not be an anchor or a tag on the same margin. -/
def blockEntry (lexer : Lexer) : Except Error Lexer := do
  if lexer.inFlow then lexer.fail .entryInFlow
  else if !lexer.keyAllowed then lexer.fail .entryNotAllowed
  else
    match lexer.queue.getLast? with
    | some ⟨.anchor _, mark⟩ | some ⟨.tag _ _, mark⟩ =>
      if lexer.cursor.column == 0 && mark.column == 0 && -1 < lexer.indent then
        throw (Problem.anchorIndentation.atMark mark)
    | _ => pure ()
    let start := lexer.mark
    let lexer := (lexer.advance 1).openBlock start.column none .blockSequenceStart start
    let (lexer, gap) ← lexer.skipToLineEnd true
    let cursor := lexer.cursor
    if gap.sawTab && cursor.peek == '-' && isBlankOrBreakOrEnd (cursor.peekAt 1) then
      lexer.fail .noBlankAfterEntry
    else
      let (lexer, _) ← lexer.skipToLineEnd false
      let lexer := if lexer.cursor.atBreak || isFlow lexer.cursor.peek then lexer.indentByOne
        else lexer
      let lexer := (← lexer.dropKey).allowKey true
      .ok (lexer.push .blockEntry lexer.mark)

/-- A question mark that announces a key. -/
def keyIndicator (lexer : Lexer) : Except Error Lexer := do
  let start := lexer.mark
  if !lexer.inFlow && !lexer.keyAllowed then lexer.fail .keyNotAllowed
  else
    let lexer := if lexer.inFlow then { lexer with inFlowMapping := true }
      else lexer.openBlock start.column none .blockMappingStart start
    let lexer := (← lexer.dropKey).allowKey !lexer.inFlow
    let lexer ← skipAfterKey (lexer.cursor.rest.length + 1) false (lexer.advance 1)
    if lexer.cursor.peek == '\t' then lexer.fail .tabAfterKeyIndicator
    else .ok (lexer.push .key start)

/-- Pass a colon; tabs alone do not separate it from a value. -/
def passColon (lexer : Lexer) : Except Error Lexer := do
  let lexer := lexer.advance 1
  if lexer.cursor.peek == '\t' then
    let (lexer, gap) ← lexer.skipToLineEnd true
    if !gap.sawSpace && isWordChar lexer.cursor.peek then lexer.fail .noBlankAfterValue
    else .ok lexer
  else .ok lexer

/-- A colon. If a key may have begun earlier, it did begin there. -/
def value (lexer : Lexer) : Except Error Lexer := do
  let candidate := lexer.key
  let start := lexer.mark
  let opensPair := !lexer.pairs.isEmpty && !lexer.inFlowMapping
  let lexer := if opensPair then { lexer with pairs := .inside :: lexer.pairs.tail } else lexer
  let lexer ← lexer.passColon
  if candidate.possible then
    let lexer := lexer.insert candidate.number .key candidate.mark
    if opensPair && candidate.mark.line < start.line then
      throw (Problem.valueOnLaterLine.atMark start)
    let lexer := if opensPair then lexer.insert candidate.number .flowMappingStart lexer.mark
      else lexer
    let lexer := (lexer.openBlock candidate.mark.column (some candidate.number)
      .blockMappingStart candidate.mark).indentByOne
    let lexer := (lexer.setKey { lexer.key with possible := false }).allowKey false
    .ok (lexer.push .value start)
  else
    let lexer := if opensPair then lexer.push .flowMappingStart lexer.mark else lexer
    if !lexer.inFlow && !lexer.keyAllowed then
      throw (Problem.valueNotAllowed.atMark start)
    let lexer := (lexer.openBlock start.column none .blockMappingStart start).indentByOne
    .ok ((lexer.allowKey !lexer.inFlow).push .value start)

/-- A colon inside brackets that no blank follows. -/
def adjacent (lexer : Lexer) : Except Error Lexer :=
  let next := lexer.cursor.peekAt 1
  if lexer.mark.index != lexer.adjacentValue && (next == '[' || next == '\x7b') then
    lexer.fail .valueBeforeFlow
  else lexer.value

/-- An anchor or an alias: a name after its indicator. -/
def named (lexer : Lexer) (kind : String → Token.Kind) : Except Error Lexer :=
  let lexer := lexer.saveKey.allowKey false
  let start := lexer.mark
  let name := (lexer.cursor.rest.drop 1).takeWhile isAnchorChar
  if name.isEmpty then lexer.fail .emptyAnchor
  else .ok ((lexer.advance (1 + name.length)).push (kind (String.ofList name)) start)

/-- Handle and suffix of a tag: `!<suffix>`, `!handle!suffix`, `!suffix` or `!` alone. -/
def splitTag (text : List Char) : String × String × Nat :=
  if text.take 2 = ['!', '<'] then
    let suffix := (text.drop 2).takeWhile fun c => c != '>' && !isBlankOrBreakOrEnd c
    ("", String.ofList suffix, suffix.length + 3)
  else
    let word := (text.drop 1).takeWhile isWordChar
    match text.drop (1 + word.length) with
    | '!' :: rest =>
      let suffix := rest.takeWhile fun c => isTagChar c && c != '!'
      ("!" ++ String.ofList word ++ "!", String.ofList suffix, word.length + 2 + suffix.length)
    | _ =>
      let suffix := (text.drop 1).takeWhile fun c => isTagChar c && c != '!'
      if suffix.isEmpty then ("", "!", 1)
      else ("!", String.ofList suffix, 1 + suffix.length)

def tag (lexer : Lexer) : Except Error Lexer :=
  let lexer := lexer.saveKey.allowKey false
  let start := lexer.mark
  let (handle, suffix, length) := splitTag lexer.cursor.rest
  let lexer := lexer.advance length
  let next := lexer.cursor.peek
  if isBlankOrBreakOrEnd next || (lexer.inFlow && isFlow next) then
    .ok (lexer.push (.tag handle suffix) start)
  else .error (Problem.unendedTag.atMark start)

def blockScalar (lexer : Lexer) (style : Style) : Except Error Lexer :=
  let lexer := (lexer.saveKey.allowKey true).dropExtraIndents
  (Block.read (style == .literal) lexer.indent lexer.cursor).map fun scalar =>
    let lexer := { lexer with cursor := scalar.cursor }
    lexer.push (.scalar style (String.ofList scalar.text)) scalar.mark

def quotedScalar (lexer : Lexer) (style : Style) : Except Error Lexer := do
  let lexer := lexer.saveKey.allowKey false
  let start := lexer.mark
  let scalar ← Quoted.read (style == .singleQuoted) lexer.indent lexer.inFlow lexer.cursor
  let lexer ← skipToNextToken { lexer with cursor := scalar.cursor }
  let lexer := { lexer with adjacentValue := lexer.mark.index }
  .ok (lexer.push (.scalar style (String.ofList scalar.text)) start)

def plainScalar (lexer : Lexer) : Except Error Lexer :=
  let lexer := (lexer.saveKey.allowKey false).dropExtraIndents
  let start := lexer.mark
  (Plain.read (lexer.indent + 1) lexer.inFlow lexer.cursor).map fun scalar =>
    let lexer := { lexer with cursor := scalar.cursor }
    (if lexer.cursor.inIndent then lexer.allowKey true else lexer).push
      (.scalar .plain (String.ofList scalar.text)) start

/-- Read the token that begins at the cursor. -/
def fetch (lexer : Lexer) : Except Error Lexer := do
  let lexer ← (← lexer.skipToNextToken).dropStaleKeys
  let cursor := lexer.cursor
  let lexer := lexer.closeBlocks cursor.column
  let c := cursor.peek
  let next := cursor.peekAt 1
  let separated := isBlankOrBreakOrEnd next
  if cursor.atEnd then lexer.streamEnd
  else if cursor.column == 0 && c == '%' then lexer.directive
  else if cursor.column == 0 && cursor.atDocumentStart then
    lexer.documentIndicator .documentStart
  else if cursor.column == 0 && cursor.atDocumentEnd then lexer.documentEnd
  else if cursor.column < lexer.indent then lexer.fail .invalidIndentation
  else if c == '[' then lexer.flowStart .flowSequenceStart
  else if c == '\x7b' then lexer.flowStart .flowMappingStart
  else if c == ']' then lexer.flowEnd .flowSequenceEnd
  else if c == '\x7d' then lexer.flowEnd .flowMappingEnd
  else if c == ',' then lexer.flowEntry
  else if c == '-' && separated then lexer.blockEntry
  else if c == '?' && separated then lexer.keyIndicator
  else if c == ':' && separated then lexer.value
  else if c == ':' && lexer.inFlow
      && (isFlow next || cursor.mark.index == lexer.adjacentValue) then lexer.adjacent
  else if c == '*' then lexer.named .alias
  else if c == '&' then lexer.named .anchor
  else if c == '!' then lexer.tag
  else if c == '|' && !lexer.inFlow then lexer.blockScalar .literal
  else if c == '>' && !lexer.inFlow then lexer.blockScalar .folded
  else if c == '\'' then lexer.quotedScalar .singleQuoted
  else if c == '"' then lexer.quotedScalar .doubleQuoted
  else if c == '%' || c == '@' || c == '\x60' then lexer.fail (.unexpectedCharacter c)
  else lexer.plainScalar

/-- Whether the first token of the queue may still turn out to follow a key. -/
def mustWait (lexer : Lexer) : Bool :=
  lexer.queue.isEmpty
    || lexer.keys.any fun candidate => candidate.possible && candidate.number == lexer.released

/-- Read on until the first token of the queue is certain. -/
def fill : Nat → Lexer → Except Error Lexer
  | 0, lexer => .ok lexer
  | fuel + 1, lexer => do
    if lexer.ended then .ok lexer
    else if lexer.queue.isEmpty then fill fuel (← lexer.fetch)
    else
      let lexer ← lexer.dropStaleKeys
      if lexer.mustWait then fill fuel (← lexer.fetch) else .ok lexer

/-- Release tokens one by one. A token takes at least a character, or closes what one
opened, so the fuel is a multiple of the length of the text. -/
def run (fillFuel : Nat) : Nat → Lexer → Stream Token
  | 0, _ => .ended
  | fuel + 1, lexer =>
    match fill fillFuel lexer with
    | .error e => .stopped e
    | .ok lexer =>
      match lexer.queue with
      | [] => .ended
      | token :: rest =>
        (run fillFuel fuel { lexer with queue := rest, released := lexer.released + 1 }).cons token

end Lexer

/-- The tokens of a text, up to its end or the first place that no token fits. -/
def Stream.ofText (text : List Char) : Stream Token :=
  Lexer.run (text.length + 3) (4 * text.length + 8) (.ofText text)

end BuildGraph.Yaml
