import BuildGraph.Diagnostic
import BuildGraph.Text.Blank
import BuildGraph.Yaml.Error

/-! A YAML error told in terms of a target file.

The message names the top-level target whose block holds the place and adds advice for the
usual slips, so that it is useful without an excerpt.
-/

set_option autoImplicit false

namespace BuildGraph.Manifest

/-! ## The target to name -/

/-- Whether a line cannot start a block: it is indented, a comment or a list item. -/
def isInnerLine (line : List Char) : Bool :=
  match line with
  | [] => false
  | c :: _ => c == ' ' || c == '\t' || c == '#' || c == '-'

/-- The key with which a line starts a block. -/
def blockKey? (line : List Char) : Option (List Char) :=
  if isInnerLine line then none else (Text.before? ':' line).map Text.trim

/-- The key of the last block that starts at or before a line, counted from one. -/
def blockKeyAt? (source : List Char) (line : Nat) : Option (List Char) :=
  (((Text.lines source).take line).reverse.findSome? blockKey?).filter (!·.isEmpty)

/-! ## Advice -/

/-- The lower case of a letter. Of the letters outside ASCII only the Kelvin sign has a plain
letter as its lower case. -/
def lower (c : Char) : Char := if c.toNat = 0x212A then 'k' else c.toLower

/-- Parts of an error text and the advice that goes with each. -/
def advices : List (String × String) := [
  ("did not find expected '-'",
    "Start dependency list items with '-' and indent them under their target."),
  ("expected ':'",
    "Follow each target name with ':' before its dependencies."),
  ("mapping values are not allowed",
    "Check for a stray ':' or quote target names that contain one."),
  ("found character that cannot start any token",
    "Remove stray characters and ensure indentation uses spaces (no tabs)."),
  ("unknown escape character",
    "Use valid YAML escape sequences or quote the target name.")]

/-- Advice for an error text and the line it is about. A tab in the indentation goes before
all that the text says. -/
def advice? (error : String) (line : List Char) : Option String :=
  if (line.takeWhile Text.isSpace).contains '\t' then
    some "Use spaces for indentation; tabs are invalid in YAML."
  else
    let text := error.toList.map lower
    (advices.find? fun (part, _) => Text.contains part.toList text).map (·.2)

/-! ## Places -/

/-- How many bytes stand before a place; the text goes on at `line` and `column`. A column
past the end of its line is reached in a later line. -/
def bytesBefore (place : Yaml.Location) : Nat → Nat → List Char → Nat
  | _, _, [] => 0
  | line, column, c :: rest =>
    if place.line ≤ line ∧ place.column ≤ column then 0
    else if c = '\n' then c.utf8Size + bytesBefore place (line + 1) 1 rest
    else c.utf8Size + bytesBefore place line (column + 1) rest

/-- A YAML error and the text of the file that has it. -/
structure ParseError where
  source : String
  cause : Yaml.Error
  deriving DecidableEq, Repr

namespace ParseError

def code : String := "targetgraph::yaml::parse"

/-- The place to name; the start of the file when none is known. -/
def place (error : ParseError) : Yaml.Location := error.cause.location.getD ⟨1, 1⟩

def target? (error : ParseError) : Option String :=
  (blockKeyAt? error.source.toList error.place.line).map String.ofList

def help (error : ParseError) : Option String :=
  advice? error.cause.text ((Text.lines error.source.toList)[error.place.line - 1]?.getD [])

def message (error : ParseError) : String :=
  "YAML parse error" ++ (error.target?.map fun key => " in target '" ++ key ++ "'").getD ""
    ++ " at line " ++ toString error.place.line ++ ", column " ++ toString error.place.column
    ++ ": " ++ error.cause.text
    ++ (error.help.map ("\nhelp: " ++ ·)).getD ""

def label (error : ParseError) : String :=
  (error.target?.map fun key => "parse error in target '" ++ key ++ "'").getD "parse error here"

/-- Where in the file the place is, if it is known. -/
def offset? (error : ParseError) : Option Nat :=
  error.cause.location.map fun place => bytesBefore place 1 1 error.source.toList

/-- The long form for a file that is shown as `name`. -/
def diagnostic (name : String) (error : ParseError) : Diagnostic :=
  ⟨code, error.message, error.help,
    error.offset?.map fun offset => ⟨name, error.source, offset, error.label⟩⟩

end ParseError

end BuildGraph.Manifest
