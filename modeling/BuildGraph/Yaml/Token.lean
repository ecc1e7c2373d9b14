import BuildGraph.Yaml.Error

/-! Tokens of a YAML text, the characters they are made of, and streams of them. -/

set_option autoImplicit false

namespace BuildGraph.Yaml

/-- How a scalar was written. -/
inductive Style where
  | plain
  | singleQuoted
  | doubleQuoted
  | literal
  | folded
  deriving DecidableEq, Repr

namespace Token

inductive Kind where
  | streamStart
  | streamEnd
  | directive
  | documentStart
  | documentEnd
  | blockSequenceStart
  | blockMappingStart
  | blockEnd
  | flowSequenceStart
  | flowSequenceEnd
  | flowMappingStart
  | flowMappingEnd
  | blockEntry
  | flowEntry
  | key
  | value
  | alias (name : String)
  | anchor (name : String)
  | tag (handle suffix : String)
  | scalar (style : Style) (text : String)
  deriving DecidableEq, Repr

end Token

structure Token where
  kind : Token.Kind
  mark : Mark
  deriving DecidableEq, Repr

/-- Items up to the place where a reader had to stop, and why it did. -/
structure Stream (α : Type) where
  items : List α
  stop : Option Error

namespace Stream

variable {α : Type}

def cons (item : α) (stream : Stream α) : Stream α :=
  { stream with items := item :: stream.items }

def stopped (error : Error) : Stream α := ⟨[], some error⟩

def ended : Stream α := ⟨[], none⟩

end Stream

/-! ### Characters

The NUL character stands for the end of a text. -/

def endChar : Char := '\x00'

def isBreak (c : Char) : Bool := c == '\n' || c == '\r'

def isBlank (c : Char) : Bool := c == ' ' || c == '\t'

def isBreakOrEnd (c : Char) : Bool := isBreak c || c == endChar

def isBlankOrBreakOrEnd (c : Char) : Bool := isBlank c || isBreakOrEnd c

/-- The characters with a meaning of their own inside brackets. -/
def isFlow (c : Char) : Bool :=
  c == ',' || c == '[' || c == ']' || c == '\x7b' || c == '\x7d'

def isWordChar (c : Char) : Bool := c.isAlphanum || c == '_' || c == '-'

def isAnchorChar (c : Char) : Bool :=
  !isBlankOrBreakOrEnd c && !isFlow c && c.toNat != 0xFEFF

def isTagChar (c : Char) : Bool := isWordChar c || "#;/?:@&=+$.~*'()%!".contains c

def hexValue? (c : Char) : Option Nat :=
  if c.isDigit then some (c.toNat - '0'.toNat)
  else if 'a' ≤ c ∧ c ≤ 'f' then some (c.toNat - 'a'.toNat + 10)
  else if 'A' ≤ c ∧ c ≤ 'F' then some (c.toNat - 'A'.toNat + 10)
  else none

end BuildGraph.Yaml
