import BuildGraph.Yaml.Token.Cursor

/-! Plain scalars: text without quotes that may go on over several lines.

A single line break inside reads as a blank, and each further one as itself.
-/

set_option autoImplicit false

namespace BuildGraph.Yaml

/-- A scalar that was read and the place after it. -/
structure ScalarRead where
  text : List Char
  cursor : Cursor

/-- What blanks and line breaks between two pieces of text read as. -/
def foldGap (blanks : List Char) (breaks : Nat) : List Char :=
  match breaks with
  | 0 => blanks
  | 1 => [' ']
  | more + 1 => List.replicate more '\n'

namespace Plain

/-- The characters up to a blank, a break, or an indicator that ends the scalar. -/
def piece (inFlow : Bool) : List Char → List Char
  | [] => []
  | c :: rest =>
    let next := rest.headD endChar
    if isBlankOrBreakOrEnd c then []
    else if inFlow && isFlow c then []
    else if c == ':' && (isBlankOrBreakOrEnd next || (inFlow && isFlow next)) then []
    else c :: piece inFlow rest

/-- Pass blanks and breaks. A tab may not indent a line below `indent` that has text. -/
def gap (indent : Int) (start : Mark) :
    Nat → List Char → Nat → Cursor → Except Error ScalarRead
  | 0, blanks, breaks, cursor => .ok ⟨foldGap blanks breaks, cursor⟩
  | fuel + 1, blanks, breaks, cursor =>
    if cursor.atBreak then gap indent start fuel blanks (breaks + 1) cursor.advanceBreak
    else if !cursor.atBlank then .ok ⟨foldGap blanks breaks, cursor⟩
    else if !cursor.inIndent then
      gap indent start fuel (blanks ++ [cursor.peek]) breaks (cursor.advance 1)
    else if cursor.column < indent && cursor.peek == '\t' then
      match cursor.skipToLineEnd true with
      | .error e => .error e
      | .ok passed =>
        if passed.cursor.atBreakOrEnd then gap indent start fuel blanks breaks passed.cursor
        else .error (Problem.tabInPlainScalar.atMark start)
    else gap indent start fuel blanks breaks (cursor.advance 1)

/-- Read pieces; `pending` is what the last gap reads as if more text follows. -/
def pieces (indent : Int) (inFlow : Bool) (start : Mark) :
    Nat → List Char → List Char → Cursor → Except Error ScalarRead
  | 0, text, _, cursor => .ok ⟨text, cursor⟩
  | fuel + 1, text, pending, cursor =>
    if (cursor.inIndent && cursor.atDocumentIndicator) || cursor.peek == '#' then
      .ok ⟨text, cursor⟩
    else if inFlow && cursor.peek == '-' && isFlow (cursor.peekAt 1) then
      .error (Problem.dashBeforeFlow.atMark cursor.mark)
    else
      let found := piece inFlow cursor.rest
      let text := if found.isEmpty then text else text ++ pending ++ found
      let cursor := cursor.advance found.length
      if !(cursor.atBlank || cursor.atBreak) then .ok ⟨text, cursor⟩
      else
        match gap indent start cursor.rest.length [] 0 cursor with
        | .error e => .error e
        | .ok passed =>
          if !inFlow && passed.cursor.column < indent then .ok ⟨text, passed.cursor⟩
          else pieces indent inFlow start fuel text passed.text passed.cursor

/-- Read a plain scalar whose lines are indented by at least `indent`. -/
def read (indent : Int) (inFlow : Bool) (cursor : Cursor) : Except Error ScalarRead :=
  if inFlow && cursor.column < indent then
    .error (Problem.flowIndentation.atMark cursor.mark)
  else
    match pieces indent inFlow cursor.mark (cursor.rest.length + 1) [] [] cursor with
    | .error e => .error e
    | .ok scalar =>
      if scalar.text.isEmpty then .error (Problem.emptyPlainScalar.atMark cursor.mark)
      else .ok scalar

end Plain

end BuildGraph.Yaml
