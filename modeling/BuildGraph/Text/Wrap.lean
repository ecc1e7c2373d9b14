import BuildGraph.Text.LineBreak

/-! Filling lines up to a width.

A line that is too wide goes on in the next one. It is cut where it may be, after a hyphen
between letters or digits, and inside a word only when the word alone is too wide. Every
line of the text starts anew, and blanks at the end of a line are dropped.
-/

set_option autoImplicit false

namespace BuildGraph.Text

/-- A piece that stays together, and the number of blanks after it. -/
structure Word where
  text : List Char
  blanks : Nat

def Word.ofChars (text : List Char) : Word :=
  let blanks := (text.reverse.takeWhile (· == ' ')).length
  ⟨text.take (text.length - blanks), blanks⟩

/-- Cut a line into the pieces that stay together. -/
def words (line : List Char) : List Word :=
  if line.isEmpty then [] else (cuts line).map Word.ofChars

/-- Letters and digits. Outside ASCII everything counts but marks, punctuation and symbols. -/
def isWordChar (c : Char) : Bool :=
  let n := c.toNat
  c.isAlphanum
    || (0xC0 ≤ n && n != 0xD7 && n != 0xF7 && !inRanges n [(0x2000, 0x206F), (0x20A0, 0x20CF),
      (0x2190, 0x245F), (0x2500, 0x2BFF), (0x3000, 0x3004), (0x3008, 0x3020), (0xFE10, 0xFE6F),
      (0xFF01, 0xFF0F), (0x1F000, 0x1FAFF)]
      && (BreakClass.ofChar c == .letter || BreakClass.ofChar c == .ideograph
        || BreakClass.ofChar c == .nonStarter))

/-- Cut after the hyphens that stand between letters or digits. -/
def splitHyphens : List Char → List (List Char)
  | [] => []
  | a :: '-' :: b :: rest =>
    if isWordChar a && isWordChar b then [a, '-'] :: splitHyphens (b :: rest)
    else
      match splitHyphens ('-' :: b :: rest) with
      | [] => [[a]]
      | first :: more => (a :: first) :: more
  | c :: rest =>
    match splitHyphens rest with
    | [] => [[c]]
    | first :: more => (c :: first) :: more

/-- Cut a text into parts that are not too wide; `used` is the width of the open part. -/
def chop (limit : Nat) : Nat → List Char → List (List Char)
  | _, [] => []
  | used, c :: rest =>
    let n := charWidth c
    if 0 < used && limit < used + n then
      match chop limit n rest with
      | [] => [[], [c]]
      | first :: more => [] :: (c :: first) :: more
    else
      match chop limit (used + n) rest with
      | [] => [[c]]
      | first :: more => (c :: first) :: more

/-- Give the blanks after a word to the last of its parts. -/
def withBlanks (blanks : Nat) : List (List Char) → List Word
  | [] => [⟨[], blanks⟩]
  | [last] => [⟨last, blanks⟩]
  | part :: rest => ⟨part, 0⟩ :: withBlanks blanks rest

def Word.parts (limit : Nat) (word : Word) : List Word :=
  let pieces := (splitHyphens word.text).flatMap fun piece =>
    if limit < width piece then chop limit 0 piece else [piece]
  withBlanks word.blanks pieces

/-- Lines as lists of words, of which each line takes as many as fit. -/
def fitLines (limit : Nat) : Nat → List Word → List Word → List (List Word)
  | _, line, [] => [line]
  | used, line, word :: rest =>
    let n := width word.text
    if limit < used + n && !line.isEmpty then
      line :: fitLines limit (n + word.blanks) [word] rest
    else fitLines limit (used + n + word.blanks) (line ++ [word]) rest

/-- The text of a line, less the blanks at its end. -/
def lineText : List Word → List Char
  | [] => []
  | [last] => last.text
  | word :: rest => word.text ++ List.replicate word.blanks ' ' ++ lineText rest

/-- The lines that one line is filled into; `first` and `other` are the indents. -/
def fillLine (limit : Nat) (first other line : List Char) : List (List Char) :=
  let room := limit - width other
  let filled := fitLines room (width first - width other) []
    (⟨[], 0⟩ :: (words line).flatMap (Word.parts room))
  match filled.map lineText with
  | [] => [first]
  | head :: more => (first ++ head) :: more.map (other ++ ·)

/-- Cut a text at line feeds, also after the last one. -/
def splitFeeds : List Char → List (List Char)
  | [] => [[]]
  | '\n' :: rest => [] :: splitFeeds rest
  | c :: rest =>
    match splitFeeds rest with
    | [] => [[c]]
    | line :: more => (c :: line) :: more

def fillLines (limit : Nat) (first other : List Char) : List (List Char) → List (List Char)
  | [] => []
  | line :: rest => fillLine limit first other line ++ fillLines limit other other rest

/-- Fill a text into lines of `limit` columns with an indent for the first and one for the
others. -/
def fill (limit : Nat) (first other text : String) : String :=
  "\n".intercalate ((fillLines limit first.toList other.toList (splitFeeds text.toList)).map
    String.ofList)

end BuildGraph.Text
