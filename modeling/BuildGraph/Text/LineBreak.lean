import BuildGraph.Text.Width

/-! Where a line may be cut.

Characters fall into classes, and two neighbours either belong together or may be parted.
Blanks part what is around them, but an opening bracket holds on to what follows it, and a
closing one or a separator to what is before it, also over blanks.
-/

set_option autoImplicit false

namespace BuildGraph.Text

inductive BreakClass where
  | lineEnd
  | space
  | zeroSpace
  | joiner
  | glue
  | opening
  | closing
  | closingParen
  | quotation
  | exclamation
  | separator
  | solidus
  | breakAfter
  | hyphen
  | nonStarter
  | breakBefore
  | dash
  | ellipsis
  | number
  | letter
  | ideograph
  | currency
  | unit
  | mark
  deriving DecidableEq, Repr

namespace BreakClass

/-- The characters that are listed one by one. -/
def listed : List (BreakClass × List Nat) := [
  (.lineEnd, [0xA, 0xB, 0xC, 0xD, 0x85, 0x2028, 0x2029]),
  (.space, [0x20]),
  (.zeroSpace, [0x200B]),
  (.joiner, [0x2060, 0xFEFF]),
  (.glue, [0xA0, 0x2007, 0x2011, 0x202F]),
  (.opening, [0x28, 0x5B, 0x7B, 0xA1, 0xBF, 0x201A, 0x201E, 0x2329, 0x3008, 0x300A, 0x300C,
    0x300E, 0x3010, 0x3014, 0x3016, 0x3018, 0x301A, 0x301D, 0xFF08, 0xFF3B, 0xFF5B]),
  (.closing, [0x7D, 0x232A, 0x3001, 0x3002, 0x3009, 0x300B, 0x300D, 0x300F, 0x3011, 0x3015,
    0x3017, 0x3019, 0x301B, 0x301E, 0x301F, 0xFF09, 0xFF0C, 0xFF0E, 0xFF3D, 0xFF5D]),
  (.closingParen, [0x29, 0x5D]),
  (.quotation, [0x22, 0x27, 0xAB, 0xBB, 0x2018, 0x2019, 0x201B, 0x201C, 0x201D, 0x201F, 0x2039,
    0x203A]),
  (.exclamation, [0x21, 0x3F, 0xFF01, 0xFF1F]),
  (.separator, [0x2C, 0x2E, 0x3A, 0x3B, 0x2044]),
  (.solidus, [0x2F]),
  (.breakAfter, [0x9, 0x7C, 0xAD, 0x1680, 0x2000, 0x2001, 0x2002, 0x2003, 0x2004, 0x2005, 0x2006,
    0x2008, 0x2009, 0x200A, 0x2010, 0x2012, 0x2013, 0x2027, 0x205F, 0x3000]),
  (.hyphen, [0x2D]),
  (.nonStarter, [0x203C, 0x203D, 0x3005, 0x301C, 0x303B, 0x303C, 0x3041, 0x3043, 0x3045, 0x3047,
    0x3049, 0x3063, 0x3083, 0x3085, 0x3087, 0x308E, 0x309B, 0x309C, 0x309D, 0x309E, 0x30A0,
    0x30A1, 0x30A3, 0x30A5, 0x30A7, 0x30A9, 0x30C3, 0x30E3, 0x30E5, 0x30E7, 0x30EE, 0x30FB,
    0x30FC, 0x30FD, 0x30FE, 0xFF1A, 0xFF1B]),
  (.breakBefore, [0xB4]),
  (.dash, [0x2014]),
  (.ellipsis, [0x2024, 0x2025, 0x2026]),
  (.currency, [0x24, 0x2B, 0x5C, 0xA3, 0xA4, 0xA5, 0xB1, 0x20AC, 0x2116]),
  (.unit, [0x25, 0xA2, 0xB0, 0x2030, 0x2031, 0x2032, 0x2033, 0x2103, 0xFF05])]

/-- The class of a character: a listed one, or what its kind and its width tell. -/
def ofChar (c : Char) : BreakClass :=
  match listed.find? fun row => row.2.contains c.toNat with
  | some row => row.1
  | none =>
    if c.isDigit then .number
    else if isControl c || charWidth c = 0 then .mark
    else if charWidth c = 2 then .ideograph
    else .letter

/-- Whether two neighbours belong together; `apart` tells of blanks between them. The first
case that fits decides. -/
def together (apart : Bool) (left right : BreakClass) : Bool :=
  if right = lineEnd then true
  else if left = lineEnd then false
  else if right = space || right = zeroSpace then true
  else if left = zeroSpace then false
  else if right = joiner || (left = joiner && !apart) then true
  else if left = glue && !apart then true
  else if right = glue && !apart && left ≠ breakAfter && left ≠ hyphen then true
  else if right ∈ [closing, closingParen, exclamation, separator, solidus] then true
  else if left = opening then true
  else if left = quotation && right = opening then true
  else if left ∈ [closing, closingParen] && right = nonStarter then true
  else if left = dash && right = dash then true
  else if apart then false
  else if left = quotation || right = quotation then true
  else if right ∈ [breakAfter, hyphen, nonStarter, ellipsis] || left = breakBefore then true
  else
    match left, right with
    | letter, number | number, letter => true
    | currency, ideograph | ideograph, unit => true
    | currency, letter | unit, letter | letter, currency | letter, unit => true
    | closing, unit | closing, currency | closingParen, unit | closingParen, currency => true
    | number, unit | number, currency => true
    | unit, opening | unit, number | currency, opening | currency, number => true
    | hyphen, number | separator, number | number, number | solidus, number => true
    | letter, letter | separator, letter => true
    | letter, opening | number, opening | closingParen, letter | closingParen, number => true
    | _, _ => false

end BreakClass

/-- The last character and its class, and whether blanks came after what has that class. A mark
counts as part of the character before it. -/
structure BreakState where
  last : Char
  left : BreakClass
  apart : Bool

/-- The state after a character, the first of its line when there is no state before it. -/
def BreakState.after (state : Option BreakState) (c : Char) : BreakState :=
  let right := BreakClass.ofChar c
  match state with
  | none => ⟨c, if right = .mark then .letter else right, right = .space⟩
  | some state =>
    if right = .space then ⟨c, state.left, true⟩
    else if right = .mark then
      if state.apart || state.left = .lineEnd || state.left = .zeroSpace then
        ⟨c, .letter, false⟩
      else ⟨c, state.left, false⟩
    else ⟨c, right, false⟩

/-- Whether a line may be cut before a character. After hyphens, also soft ones, it may not. -/
def BreakState.cutsBefore (state : BreakState) (c : Char) : Bool :=
  let right := BreakClass.ofChar c
  let right := if right ≠ .mark then right
    else if state.apart || state.left = .lineEnd || state.left = .zeroSpace then .letter
    else .space
  state.last != '-' && state.last.toNat != 0xAD
    && !BreakClass.together state.apart state.left right

/-- Cut a line wherever it may be cut. The first part goes on from `state`. -/
def cutsFrom (state : Option BreakState) : List Char → List (List Char)
  | [] => [[]]
  | c :: rest =>
    let cut := (state.map fun state => state.cutsBefore c).getD false
    match cutsFrom (some (.after state c)) rest with
    | [] => [[c]]
    | first :: more => if cut then [] :: (c :: first) :: more else (c :: first) :: more

def cuts (line : List Char) : List (List Char) := cutsFrom none line

end BuildGraph.Text
