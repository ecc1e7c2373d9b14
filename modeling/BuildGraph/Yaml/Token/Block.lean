import BuildGraph.Yaml.Token.Plain

/-! Block scalars: the indented lines after a bar, or after an angle that folds them.

The header may give the indentation and what becomes of the line breaks at the end.
-/

set_option autoImplicit false

namespace BuildGraph.Yaml.Block

/-- What becomes of the line breaks at the end of a block scalar. -/
inductive Chomping where
  | strip
  | clip
  | keep
  deriving DecidableEq, Repr

structure Header where
  chomping : Chomping
  increment : Nat

def chomping? (c : Char) : Option Chomping :=
  if c == '+' then some .keep else if c == '-' then some .strip else none

/-- The indicators after the bar or angle, in either order. -/
def header (start : Mark) (cursor : Cursor) : Except Error (Header × Cursor) :=
  let digitAt (n : Nat) : Except Error (Option Nat) :=
    let c := cursor.peekAt n
    if c == '0' then .error (Problem.blockIndicatorZero.atMark start)
    else .ok (if c.isDigit then some (c.toNat - '0'.toNat) else none)
  match chomping? cursor.peek with
  | some chomping => do
    match ← digitAt 1 with
    | some increment => .ok (⟨chomping, increment⟩, cursor.advance 2)
    | none => .ok (⟨chomping, 0⟩, cursor.advance 1)
  | none => do
    match ← digitAt 0 with
    | none => .ok (⟨.clip, 0⟩, cursor)
    | some increment =>
      match chomping? (cursor.peekAt 1) with
      | some chomping => .ok (⟨chomping, increment⟩, cursor.advance 2)
      | none => .ok (⟨.clip, increment⟩, cursor.advance 1)

/-- Pass empty lines and the indentation of a line that has text. -/
def skipIndent (indent : Nat) : Nat → Nat → Cursor → Nat × Cursor
  | 0, breaks, cursor => (breaks, cursor)
  | fuel + 1, breaks, cursor =>
    let blanks := ((cursor.rest.take (indent - cursor.column)).takeWhile (· == ' ')).length
    let cursor := cursor.advance blanks
    if cursor.atBreak then skipIndent indent fuel (breaks + 1) cursor.advanceBreak
    else (breaks, cursor)

/-- Pass empty lines and the blanks of the first line that has text, whatever their
number; also the widest indentation met. -/
def firstIndent : Nat → Nat → Nat → Cursor → Nat × Nat × Cursor
  | 0, widest, breaks, cursor => (widest, breaks, cursor)
  | fuel + 1, widest, breaks, cursor =>
    let cursor := cursor.advanceWhile (· == ' ')
    let widest := max widest cursor.column
    if cursor.atBreak then firstIndent fuel widest (breaks + 1) cursor.advanceBreak
    else (widest, breaks, cursor)

def newlines (n : Nat) : List Char := List.replicate n '\n'

/-- The text so far: `pendingBreak` tells of the break after the last line, `breaks` counts
the empty lines after it, and `blankStart` tells that the last line starts with a blank. -/
structure Lines where
  text : List Char
  pendingBreak : Bool
  breaks : Nat
  blankStart : Bool
  cursor : Cursor

def Lines.pending (lines : Lines) : List Char := if lines.pendingBreak then ['\n'] else []

/-- Read the lines of the scalar. A folded break becomes a blank between two lines of
which neither starts with one. -/
def lines (literal : Bool) (indent : Nat) : Nat → Lines → Lines
  | 0, read => read
  | fuel + 1, read =>
    let cursor := read.cursor
    if cursor.column != indent || cursor.atEnd || (indent == 0 && cursor.atDocumentEnd) then read
    else
      let blankStart := cursor.atBlank
      let joint :=
        if !literal && read.pendingBreak && !read.blankStart && !blankStart then
          if read.breaks == 0 then [' '] else newlines read.breaks
        else read.pending ++ newlines read.breaks
      let line := cursor.rest.takeWhile fun c => !isBreakOrEnd c
      let text := read.text ++ joint ++ line
      let cursor := cursor.advance line.length
      if cursor.atEnd then ⟨text, false, 0, blankStart, cursor⟩
      else
        let cursor := cursor.advanceBreak
        let (breaks, cursor) := skipIndent indent (cursor.rest.length + 1) 0 cursor
        lines literal indent fuel ⟨text, true, breaks, blankStart, cursor⟩

/-- A block scalar and the place where its text begins. -/
structure Read where
  text : List Char
  mark : Mark
  cursor : Cursor

/-- The text of a scalar without lines, at the end of the input. -/
def emptyText (chomping : Chomping) (sameLine : Bool) (headerBreak : Bool) (breaks : Nat) :
    List Char :=
  let afterHeader := if headerBreak then ['\n'] else []
  match chomping with
  | .strip => []
  | .clip => if sameLine then [] else afterHeader
  | .keep => if sameLine then [] else if breaks == 0 then afterHeader else newlines breaks

/-- The breaks at the end of a scalar, as its chomping wants them. -/
def ending (chomping : Chomping) (indent : Nat) (read : Lines) : List Char :=
  let last := read.pending
    ++ (if read.cursor.atEnd && max indent 1 ≤ read.cursor.column then ['\n'] else [])
  match chomping with
  | .strip => []
  | .clip => last
  | .keep => last ++ newlines read.breaks

/-- Read a block scalar at its indicator, below an enclosing indentation of `outer`. -/
def read (literal : Bool) (outer : Int) (cursor : Cursor) : Except Error Read := do
  let start := cursor.mark
  let (header, cursor) ← header start (cursor.advance 1)
  let passed ← cursor.skipToLineEnd true
  let cursor := passed.cursor
  if !cursor.atBreakOrEnd then throw (Problem.blockHeader.atMark start)
  let headerBreak := cursor.atBreak
  let cursor := if headerBreak then cursor.advanceBreak else cursor
  if cursor.peek == '\t' then throw (Problem.blockStartsWithTab.atMark start)
  let fuel := cursor.rest.length + 1
  let given := if header.increment == 0 then 0 else (max outer 0).toNat + header.increment
  let (indent, breaks, cursor) :=
    if given == 0 then
      let (widest, breaks, cursor) := firstIndent fuel 0 0 cursor
      let least := max widest (outer + 1).toNat
      (if 0 < outer then max least 1 else least, breaks, cursor)
    else
      let (breaks, cursor) := skipIndent given fuel 0 cursor
      (given, breaks, cursor)
  if cursor.atEnd then
    return ⟨emptyText header.chomping (cursor.mark.line == start.line) headerBreak breaks, start,
      cursor⟩
  if cursor.column < indent && outer < cursor.column then
    throw (Problem.blockIndentation.atMark cursor.mark)
  let read := lines literal indent fuel ⟨[], false, breaks, false, cursor⟩
  return ⟨read.text ++ ending header.chomping indent read, cursor.mark, read.cursor⟩

end BuildGraph.Yaml.Block
