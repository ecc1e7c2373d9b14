import BuildGraph.Decimal.Shortest

/-! Floating-point numbers as text.

Written: positional from `1e-5` up to, not including, `1e16`, always with a point;
otherwise scientific with a signed exponent. Read: an optional sign, digits with at
most one point and an optional exponent, or a name for infinity or no number.
-/

set_option autoImplicit false

namespace BuildGraph.Decimal

/-- A floating-point value as it is written. -/
inductive Floating where
  | finite (negative : Bool) (magnitude : Double)
  | infinite (negative : Bool)
  | nan
  deriving DecidableEq, Repr

namespace Scientific

def positionalFrom : Int := -5

def positionalBelow : Int := 16

def zeros (n : Nat) : List Char := List.replicate n '0'

def positional (s : Scientific) : List Char :=
  if s.exponent < 0 then
    ['0', '.'] ++ zeros (-s.exponent - 1).toNat ++ s.digits
  else
    let whole := s.exponent.toNat + 1
    let fraction := s.digits.drop whole
    s.digits.take whole ++ zeros (whole - s.digits.length) ++ ['.']
      ++ (if fraction.isEmpty then ['0'] else fraction)

def withExponent (s : Scientific) : List Char :=
  let fraction := s.digits.drop 1
  s.digits.take 1 ++ (if fraction.isEmpty then [] else '.' :: fraction)
    ++ ['e', if s.exponent < 0 then '-' else '+'] ++ Nat.toDigits 10 s.exponent.natAbs

def text (s : Scientific) : List Char :=
  if positionalFrom ≤ s.exponent ∧ s.exponent < positionalBelow then s.positional
  else s.withExponent

end Scientific

def Double.text (x : Double) : List Char :=
  if x.significand = 0 then ['0', '.', '0'] else x.shortest.text

/-! ### Reading -/

def digitValue (c : Char) : Nat := c.toNat - '0'.toNat

def valueOfDigits (digits : List Char) : Nat :=
  digits.foldl (fun value c => 10 * value + digitValue c) 0

/-- A sign, if any, and the rest. -/
def splitSign : List Char → Bool × List Char
  | '-' :: rest => (true, rest)
  | '+' :: rest => (false, rest)
  | text => (false, text)

/-- An exponent part or nothing at all. -/
def readExponent : List Char → Option Int
  | [] => some 0
  | c :: rest =>
    if c = 'e' ∨ c = 'E' then
      let (negative, digits) := splitSign rest
      if digits.isEmpty ∨ ¬ digits.all Char.isDigit then none
      else
        let n : Int := valueOfDigits digits
        some (if negative then -n else n)
    else none

/-- The double nearest to `n · 10^power`. Powers far outside the range are decided by
the place of the first digit alone. -/
def nearest (n : Nat) (power : Int) : Option Double :=
  let place := power + (Nat.toDigits 10 n).length
  if n = 0 ∨ place < -330 then some ⟨0, Double.leastExponent⟩
  else if 330 < place then none
  else
    let (num, den) := scale 10 n 1 power
    Double.ofFraction num den

def readMagnitude (text : List Char) : Option (Option Double) :=
  let whole := text.takeWhile Char.isDigit
  let (fraction, rest) := match text.dropWhile Char.isDigit with
    | '.' :: rest => (rest.takeWhile Char.isDigit, rest.dropWhile Char.isDigit)
    | rest => ([], rest)
  if whole.isEmpty && fraction.isEmpty then none
  else (readExponent rest).map fun exponent =>
    nearest (valueOfDigits (whole ++ fraction)) (exponent - fraction.length)

/-- Read a floating-point number; the names are taken in either case. -/
def read (text : List Char) : Option Floating :=
  let (negative, rest) := splitSign text
  let word := String.ofList (rest.map Char.toLower)
  if word = "inf" ∨ word = "infinity" then some (.infinite negative)
  else if word = "nan" then some .nan
  else (readMagnitude rest).map fun magnitude =>
    match magnitude with
    | some x => .finite negative x
    | none => .infinite negative

end BuildGraph.Decimal
