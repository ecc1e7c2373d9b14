/-! White space, lines and keys of a source text.

White space is the Unicode property of that name, not the blanks of ASCII alone.
-/

set_option autoImplicit false

namespace BuildGraph.Text

/-- The characters with the Unicode property `White_Space`. -/
def isSpace (c : Char) : Bool :=
  let n := c.toNat
  (9 ≤ n && n ≤ 13) || n == 0x20 || n == 0x85 || n == 0xA0 || n == 0x1680
    || (0x2000 ≤ n && n ≤ 0x200A) || n == 0x2028 || n == 0x2029 || n == 0x202F || n == 0x205F
    || n == 0x3000

/-- Drop white space at both ends. -/
def trim (text : List Char) : List Char :=
  ((text.dropWhile isSpace).reverse.dropWhile isSpace).reverse

def isBlank (text : List Char) : Bool := text.all isSpace

/-- Lines end with a line feed, before which one carriage return belongs to the end. -/
def lines : List Char → List (List Char)
  | [] => []
  | '\n' :: rest => [] :: lines rest
  | '\r' :: '\n' :: rest => [] :: lines rest
  | c :: rest =>
    match lines rest with
    | [] => [[c]]
    | line :: more => (c :: line) :: more

/-- The part before the first `mark`, if there is one. -/
def before? (mark : Char) (text : List Char) : Option (List Char) :=
  if mark ∈ text then some (text.takeWhile (· ≠ mark)) else none

/-- Whether `needle` occurs in a text. -/
def contains (needle : List Char) : List Char → Bool
  | [] => needle.isEmpty
  | c :: rest => needle.isPrefixOf (c :: rest) || contains needle rest

end BuildGraph.Text
