import BuildGraph.Yaml.Token

/-! A place in a text together with the text from there on. -/

set_option autoImplicit false

namespace BuildGraph.Yaml

/-- `inIndent` tells whether only blanks have been passed on the current line. -/
structure Cursor where
  rest : List Char
  mark : Mark
  inIndent : Bool

namespace Cursor

def ofText (text : List Char) : Cursor := ⟨text, .start, true⟩

def column (cursor : Cursor) : Nat := cursor.mark.column

/-- The character `n` places ahead. -/
def peekAt (cursor : Cursor) (n : Nat) : Char := cursor.rest.getD n endChar

def peek (cursor : Cursor) : Char := cursor.peekAt 0

def atEnd (cursor : Cursor) : Bool := cursor.peek == endChar

def atBreak (cursor : Cursor) : Bool := isBreak cursor.peek

def atBlank (cursor : Cursor) : Bool := isBlank cursor.peek

def atBreakOrEnd (cursor : Cursor) : Bool := isBreakOrEnd cursor.peek

/-- Pass `n` characters of the current line. -/
def advance (cursor : Cursor) (n : Nat) : Cursor :=
  let mark := cursor.mark
  { rest := cursor.rest.drop n
    mark := ⟨mark.index + n, mark.line, mark.column + n⟩
    inIndent := cursor.inIndent && (cursor.rest.take n).all isBlank }

/-- Pass a line break; a carriage return and a line feed are one. -/
def advanceBreak (cursor : Cursor) : Cursor :=
  let n := if cursor.peek == '\r' && cursor.peekAt 1 == '\n' then 2 else 1
  ⟨cursor.rest.drop n, ⟨cursor.mark.index + n, cursor.mark.line + 1, 0⟩, true⟩

/-- Pass the characters of the current line that satisfy `p`, which no break does. -/
def advanceWhile (p : Char → Bool) (cursor : Cursor) : Cursor :=
  cursor.advance (cursor.rest.takeWhile p).length

def toLineEnd (cursor : Cursor) : Cursor :=
  cursor.advanceWhile fun c => !isBreakOrEnd c

/-- Whether `c` stands here three times, before a blank or the end of the line. -/
def atTriple (cursor : Cursor) (c : Char) : Bool :=
  cursor.peek == c && cursor.peekAt 1 == c && cursor.peekAt 2 == c
    && isBlankOrBreakOrEnd (cursor.peekAt 3)

def atDocumentStart (cursor : Cursor) : Bool := cursor.atTriple '-'

def atDocumentEnd (cursor : Cursor) : Bool := cursor.atTriple '.'

def atDocumentIndicator (cursor : Cursor) : Bool :=
  cursor.atDocumentStart || cursor.atDocumentEnd

/-- What was passed on the way to the end of a line. -/
structure Gap where
  cursor : Cursor
  sawTab : Bool
  sawSpace : Bool

/-- Pass blanks and a comment, which needs a blank before it. -/
def skipToLineEnd (cursor : Cursor) (withTabs : Bool) : Except Error Gap :=
  let blanks := cursor.rest.takeWhile fun c => c == ' ' || (withTabs && c == '\t')
  let cursor := cursor.advance blanks.length
  if cursor.peek == '#' then
    if blanks.isEmpty then .error (Problem.commentWithoutBlank.atMark cursor.mark)
    else .ok ⟨cursor.toLineEnd, blanks.contains '\t', blanks.contains ' '⟩
  else .ok ⟨cursor, blanks.contains '\t', blanks.contains ' '⟩

end Cursor

end BuildGraph.Yaml
