import BuildGraph.Text.Width

/-! An excerpt of a source with a mark below one of its places.

The excerpt holds the line of the mark, one line before it and one after it. A line feed, a
carriage return or both in that order end a line. In the excerpt a carriage return that
stands alone is shown as part of its line.
-/

set_option autoImplicit false

namespace BuildGraph

/-- A place in a named source, `offset` bytes after its start, and what is said of it. -/
structure Snippet where
  name : String
  source : String
  offset : Nat
  label : String
  deriving DecidableEq, Repr

namespace Snippet

/-- A line without and with its end. -/
structure Line where
  text : List Char
  ending : List Char
  deriving DecidableEq, Repr

def byteLength : List Char → Nat
  | [] => 0
  | c :: rest => c.utf8Size + byteLength rest

def Line.size (line : Line) : Nat := byteLength line.text + byteLength line.ending

def totalSize : List Line → Nat
  | [] => 0
  | line :: rest => line.size + totalSize rest

def splitLines : List Char → List Line
  | [] => []
  | '\n' :: rest => ⟨[], ['\n']⟩ :: splitLines rest
  | '\r' :: '\n' :: rest => ⟨[], ['\r', '\n']⟩ :: splitLines rest
  | '\r' :: rest => ⟨[], ['\r']⟩ :: splitLines rest
  | c :: rest =>
    match splitLines rest with
    | [] => [⟨[c], []⟩]
    | line :: more => { line with text := c :: line.text } :: more

/-- Let a carriage return that stands alone be text. -/
def joinReturns : List Line → List Line
  | [] => []
  | line :: rest =>
    if line.ending = ['\r'] then
      match joinReturns rest with
      | [] => [⟨line.text ++ ['\r'], []⟩]
      | next :: more => ⟨line.text ++ '\r' :: next.text, next.ending⟩ :: more
    else line :: joinReturns rest

/-- The lines that end at or before a place, and the others. -/
def splitAt : Nat → List Line → List Line × List Line
  | _, [] => ([], [])
  | offset, line :: rest =>
    if line.ending ≠ [] ∧ line.size ≤ offset then
      let (before, after) := splitAt (offset - line.size) rest
      (line :: before, after)
    else ([], line :: rest)

/-! ## Columns -/

def tabWidth : Nat := 4

/-- The columns that a character takes, and whether an escape sequence is open after it. A tab
goes to the next stop; an escape sequence ends with its first `m` and takes no columns. -/
def cell (escaped : Bool) (column : Nat) (c : Char) : Nat × Bool :=
  if escaped then (0, c != 'm')
  else if c = '\t' then (tabWidth - column % tabWidth, false)
  else if c.toNat = 27 then (0, true)
  else (Text.charWidth c, false)

/-- The column after a text. -/
def columnAfter (escaped : Bool) (column : Nat) : List Char → Nat
  | [] => column
  | c :: rest =>
    let (n, next) := cell escaped column c
    columnAfter next (column + n) rest

/-- A text with blanks for its tabs. -/
def expanded (escaped : Bool) (column : Nat) : List Char → List Char
  | [] => []
  | c :: rest =>
    let (n, next) := cell escaped column c
    (if c = '\t' then List.replicate n ' ' else [c]) ++ expanded next (column + n) rest

/-- The characters that fit into a number of bytes. -/
def takeBytes : Nat → List Char → List Char
  | _, [] => []
  | n, c :: rest => if c.utf8Size ≤ n then c :: takeBytes (n - c.utf8Size) rest else []

/-- The column of a place in a line; behind the text there is one more. -/
def columnAt (offset : Nat) (text : List Char) : Nat :=
  if byteLength text < offset then columnAfter false 0 text + 1
  else columnAfter false 0 (takeBytes offset text)

/-! ## Excerpt -/

def blanks (n : Nat) : List Char := List.replicate n ' '

/-- The lines of an excerpt; the first has the number `number` and starts `start` bytes after
the start of the source. An unended line that closes with a carriage return keeps the number
of the line before it. -/
def numbered (number start : Nat) : List Line → List (Nat × Nat × Line)
  | [] => []
  | line :: rest =>
    let own := if line.ending = [] ∧ line.text.getLast? = some '\r' then number - 1 else number
    (own, start, line) :: numbered (number + 1) (start + line.size) rest

/-- How many lines follow the lines before the mark: its own and the next, and one more when
the mark is inside an end of line or before a first line that is empty. -/
def reach (offset column : Nat) : List Line → Nat
  | [] => 2
  | line :: _ =>
    if byteLength line.text < column then 3
    else if offset = 0 ∧ line.text = [] ∧ line.ending ≠ [] then 3
    else 2

/-- The rows of a line: its text, and below it the mark and the label if they are there. -/
def rows (snippet : Snippet) (gutter : Nat) : Nat × Nat × Line → List (List Char)
  | (number, start, line) =>
    let digits := (toString number).toList
    let textRow := blanks (gutter + 1 - digits.length) ++ digits ++ [' ', '|', ' ']
      ++ expanded false 0 line.text
    if start ≤ snippet.offset ∧ snippet.offset < start + line.size then
      let column := blanks (columnAt (snippet.offset - start) line.text)
      let bar := blanks (gutter + 2) ++ [':', ' ']
      [textRow, bar ++ column ++ ['^'], bar ++ column ++ ['\x60', '-', '-', ' ']
        ++ snippet.label.toList]
    else [textRow]

/-- The excerpt, framed, with the place of the mark above it. -/
def text (snippet : Snippet) : String :=
  let (before, after) := splitAt snippet.offset (splitLines snippet.source.toList)
  let skipped := before.dropLast
  let lineStart := totalSize before
  let column := snippet.offset - lineStart
  let window := before.getLast?.toList ++ after.take (reach snippet.offset column after)
  let lines := numbered (skipped.length + 1) (totalSize skipped) (joinReturns window)
  let gutter := (toString ((lines.getLast?.map (·.1)).getD 0)).length
  let textColumn := min column ((after.head?.map fun line => byteLength line.text).getD 0)
  let head := blanks (gutter + 2) ++ [',', '-', '['] ++ snippet.name.toList ++ [':']
    ++ (toString (before.length + 1)).toList ++ [':'] ++ (toString (textColumn + 1)).toList ++ [']']
  let foot := blanks (gutter + 2) ++ ['\x60', '-', '-', '-', '-']
  String.ofList ((head :: lines.flatMap (rows snippet gutter) ++ [foot]).flatMap (· ++ ['\n']))

end Snippet

end BuildGraph
