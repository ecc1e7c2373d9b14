/-! The shortest decimal that reads back as the same double.

A double is `m · 2^q` with `m < 2^53`, and the reals that round to it form an
interval around it, its ends included when `m` is even. Of the decimals in the
interval the one with the fewest digits is taken, of several the nearest, and of
two equally near the one with an even last digit. All arithmetic is exact.
-/

set_option autoImplicit false

namespace BuildGraph.Decimal

/-- A finite double without its sign: `significand · 2^exponent`. -/
structure Double where
  significand : Nat
  exponent : Int
  deriving DecidableEq, Repr

/-- A fraction of natural numbers, scaled by a power of the base. -/
def scale (base : Nat) (num den : Nat) (exponent : Int) : Nat × Nat :=
  if 0 ≤ exponent then (num * base.pow exponent.toNat, den)
  else (num, den * base.pow (-exponent).toNat)

/-- Round a fraction to the nearest natural number, a tie to the even one. -/
def roundHalfEven (num den : Nat) : Nat :=
  let quotient := num / den
  let twice := 2 * (num % den)
  if twice < den then quotient
  else if den < twice then quotient + 1
  else if quotient % 2 = 0 then quotient else quotient + 1

namespace Double

def leastExponent : Int := -1074

def greatestExponent : Int := 971

/-- All significands lie below `2^53`, and those of doubles that are not tiny from half of it. -/
def significandLimit : Nat := 9007199254740992

/-- The double nearest to a fraction; `none` when it is too large. -/
def ofFraction (num den : Nat) : Option Double :=
  if num = 0 then some ⟨0, leastExponent⟩
  else
    let guess : Int := (num.log2 : Int) - den.log2 - 53
    -- the guess is at most one below the exponent that leaves 53 bits
    let (n, d) := scale 2 num den (-guess)
    let exponent := max leastExponent (if n / d < significandLimit then guess else guess + 1)
    let (n, d) := scale 2 num den (-exponent)
    let rounded := roundHalfEven n d
    let (significand, exponent) :=
      if rounded = significandLimit then (significandLimit / 2, exponent + 1)
      else (rounded, exponent)
    if greatestExponent < exponent then none else some ⟨significand, exponent⟩

end Double

/-- Decimal digits `digits` with the point after the first and a power of ten. -/
structure Scientific where
  digits : List Char
  exponent : Int
  deriving DecidableEq, Repr

/-- The power of ten of the first digit of a positive fraction. -/
def leadingPower (num den : Nat) : Int :=
  if den ≤ num then ((Nat.toDigits 10 (num / den)).length : Int) - 1
  else -((Nat.toDigits 10 ((den - 1) / num)).length : Int)

/-- Four times a double and the ends of its rounding interval, over one denominator. -/
structure Interval where
  low : Nat
  value : Nat
  high : Nat
  den : Nat
  closed : Bool

def Double.interval (x : Double) : Interval :=
  let narrow := 2 * x.significand = Double.significandLimit ∧ Double.leastExponent < x.exponent
  let unit := scale 2 1 4 x.exponent
  { low := (4 * x.significand - if narrow then 1 else 2) * unit.1
    value := 4 * x.significand * unit.1
    high := (4 * x.significand + 2) * unit.1
    den := unit.2
    closed := x.significand % 2 = 0 }

/-- Whether `n` units of ten to the `power` lie in the interval. -/
def Interval.admits (i : Interval) (power : Int) (n : Nat) : Bool :=
  let (num, den) := scale 10 n 1 power
  let point := num * i.den
  if i.closed then i.low * den ≤ point && point ≤ i.high * den
  else i.low * den < point && point < i.high * den

/-- The point of a decimal grid that stands for the value, if one lies in the interval. -/
def Interval.gridPoint (i : Interval) (power : Int) : Option Nat :=
  let (num, den) := scale 10 i.value i.den (-power)
  let below := num / den
  let nearest := roundHalfEven num den
  if i.admits power nearest then some nearest
  else if i.admits power below then some below
  else if i.admits power (below + 1) then some (below + 1)
  else none

/-- Try grids of more and more digits, the first one at `power`. -/
def Interval.search (i : Interval) : Nat → Int → Option (Nat × Int)
  | 0, _ => none
  | fuel + 1, power =>
    match i.gridPoint power with
    | some n => if n = 0 then i.search fuel (power - 1) else some (n, power)
    | none => i.search fuel (power - 1)

/-- The shortest digits of a positive double; seventeen always suffice. -/
def Double.shortest (x : Double) : Scientific :=
  let i := x.interval
  match i.search 18 (leadingPower i.value i.den) with
  | none => ⟨['0'], 0⟩
  | some (n, power) =>
    let digits := Nat.toDigits 10 n
    let kept := (digits.reverse.dropWhile (· = '0')).reverse
    ⟨kept, power + (digits.length : Int) - 1⟩

end BuildGraph.Decimal
