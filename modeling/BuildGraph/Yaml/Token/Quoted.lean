import BuildGraph.Yaml.Token.Plain

/-! Quoted scalars. A single quote inside single quotes is written twice; inside double
quotes a backslash starts an escape, and one at the end of a line joins the lines. -/

set_option autoImplicit false

namespace BuildGraph.Yaml.Quoted

/-- What the character after a backslash stands for. -/
inductive Escape where
  | char (c : Char)
  | code (digits : Nat)

def escape? (c : Char) : Option Escape :=
  match c with
  | '0' => some (.char '\x00')
  | 'a' => some (.char '\x07')
  | 'b' => some (.char '\x08')
  | 't' => some (.char '\t')
  | '\t' => some (.char '\t')
  | 'n' => some (.char '\n')
  | 'v' => some (.char '\x0b')
  | 'f' => some (.char '\x0c')
  | 'r' => some (.char '\r')
  | 'e' => some (.char '\x1b')
  | ' ' => some (.char ' ')
  | '"' => some (.char '"')
  | '/' => some (.char '/')
  | '\\' => some (.char '\\')
  | 'N' => some (.char (Char.ofNat 0x85))
  | '_' => some (.char (Char.ofNat 0xA0))
  | 'L' => some (.char (Char.ofNat 0x2028))
  | 'P' => some (.char (Char.ofNat 0x2029))
  | 'x' => some (.code 2)
  | 'u' => some (.code 4)
  | 'U' => some (.code 8)
  | _ => none

/-- The value of exactly `n` hexadecimal digits. -/
def codeValue? (n : Nat) (text : List Char) : Option Nat :=
  let digits := text.take n
  if digits.length < n then none
  else digits.foldlM (fun value c => (hexValue? c).map (16 * value + ·)) 0

/-- Read an escape at a backslash; errors point at the start of the scalar. -/
def readEscape (start : Mark) (cursor : Cursor) : Except Error (Char × Cursor) :=
  match escape? (cursor.peekAt 1) with
  | none => .error (Problem.unknownEscape.atMark start)
  | some (.char c) => .ok (c, cursor.advance 2)
  | some (.code digits) =>
    match codeValue? digits (cursor.rest.drop 2) with
    | none => .error (Problem.escapeDigits.atMark start)
    | some value =>
      if h : value.isValidChar then
        .ok (Char.ofNatAux value h, cursor.advance (2 + digits))
      else .error (Problem.escapeCode.atMark start)

/-- A piece of text; `joined` tells that an escaped break ended it. -/
structure Piece where
  text : List Char
  cursor : Cursor
  joined : Bool

/-- The characters up to a blank, a break or the closing quote. -/
def piece (single : Bool) (start : Mark) : Nat → List Char → Cursor → Except Error Piece
  | 0, text, cursor => .ok ⟨text, cursor, false⟩
  | fuel + 1, text, cursor =>
    let c := cursor.peek
    let next := cursor.peekAt 1
    if isBlankOrBreakOrEnd c then .ok ⟨text, cursor, false⟩
    else if single then
      if c != '\'' then piece single start fuel (text ++ [c]) (cursor.advance 1)
      else if next == '\'' then piece single start fuel (text ++ [c]) (cursor.advance 2)
      else .ok ⟨text, cursor, false⟩
    else if c == '"' then .ok ⟨text, cursor, false⟩
    else if c != '\\' then piece single start fuel (text ++ [c]) (cursor.advance 1)
    else if isBreak next then .ok ⟨text, (cursor.advance 1).advanceBreak, true⟩
    else
      match readEscape start cursor with
      | .error e => .error e
      | .ok (c, cursor) => piece single start fuel (text ++ [c]) cursor

/-- Pass blanks and breaks; after an escaped break every further break counts. -/
def gap (indent : Int) (joined : Bool) :
    Nat → List Char → Nat → Cursor → Except Error ScalarRead
  | 0, blanks, breaks, cursor => .ok ⟨foldGap blanks breaks, cursor⟩
  | fuel + 1, blanks, breaks, cursor =>
    let onNewLine := joined || breaks != 0
    if cursor.atBreak then gap indent joined fuel blanks (breaks + 1) cursor.advanceBreak
    else if !cursor.atBlank then
      .ok ⟨if joined then List.replicate breaks '\n' else foldGap blanks breaks, cursor⟩
    else if !onNewLine then
      gap indent joined fuel (blanks ++ [cursor.peek]) breaks (cursor.advance 1)
    else if cursor.peek == '\t' && cursor.column < indent then
      .error (Problem.tabInQuotedScalar.atMark cursor.mark)
    else gap indent joined fuel blanks breaks (cursor.advance 1)

def pieces (single : Bool) (indent : Int) (start : Mark) :
    Nat → List Char → Cursor → Except Error ScalarRead
  | 0, _, _ => .error (Problem.quotedEnd.atMark start)
  | fuel + 1, text, cursor =>
    if cursor.column == 0 && cursor.atDocumentIndicator then
      .error (Problem.quotedDocumentIndicator.atMark start)
    else if cursor.atEnd then .error (Problem.quotedEnd.atMark start)
    else if cursor.column < indent then .error (Problem.quotedIndentation.atMark start)
    else do
      let found ← piece single start (cursor.rest.length + 1) text cursor
      if found.cursor.peek == (if single then '\'' else '"') then
        .ok ⟨found.text, found.cursor.advance 1⟩
      else
        let passed ← gap indent found.joined (found.cursor.rest.length + 1) [] 0 found.cursor
        pieces single indent start fuel (found.text ++ passed.text) passed.cursor

/-- Whether something that may follow a quoted scalar stands at the cursor. -/
def endsWell (inFlow : Bool) (start : Mark) (cursor : Cursor) : Bool :=
  let c := cursor.peek
  isBreakOrEnd c || (inFlow && (c == ',' || c == '\x7d' || c == ']' || c == ':'))
    || (!inFlow && c == ':' && start.line == cursor.mark.line)

/-- Read a quoted scalar at its opening quote, and the blanks after it. -/
def read (single : Bool) (indent : Int) (inFlow : Bool) (cursor : Cursor) :
    Except Error ScalarRead := do
  let start := cursor.mark
  let scalar ← pieces single indent start (cursor.rest.length + 1) [] (cursor.advance 1)
  let passed ← scalar.cursor.skipToLineEnd true
  if endsWell inFlow start passed.cursor then .ok ⟨scalar.text, passed.cursor⟩
  else .error (Problem.quotedTrailing.atMark passed.cursor.mark)

end BuildGraph.Yaml.Quoted
