import Redraw.Number.Binary64

/-!
# Shortest decimals

The decimal with the fewest digits that reads back as a given double, and its two written forms.
A double stands for every real number that rounds to it; the coarsest decimal grid that meets this
interval carries the answer.
-/

namespace Redraw.Number

/-! ### The interval of a double -/

/-- The reals that round to a double, as multiples of one unit `2 ^ (exponent - 2)`. -/
structure Interval where
  low : Nat
  value : Nat
  high : Nat
  closed : Bool
  exponent : Int
  deriving Repr

/-- The interval of `significand · 2 ^ exponent`. The gap below a power of two is half as wide, and
the ends belong to the interval of an even significand. -/
def Interval.ofFinite (significand : Nat) (exponent : Int) : Interval where
  low := if significand = Nat.pow 2 52 ∧ -1074 < exponent then 4 * significand - 1 else 4 * significand - 2
  value := 4 * significand
  high := 4 * significand + 2
  closed := significand % 2 = 0
  exponent := exponent - 2

/-- `n` times the unit of the interval, counted in steps of `10 ^ k`: numerator and denominator. -/
def onGrid (n : Nat) (exponent k : Int) : Nat × Nat :=
  (n * Nat.pow 2 exponent.toNat * Nat.pow 10 (-k).toNat,
    Nat.pow 2 (-exponent).toNat * Nat.pow 10 k.toNat)

def Interval.contains (i : Interval) (k : Int) (steps : Nat) : Bool :=
  let (low, den) := onGrid i.low i.exponent k
  let (high, _) := onGrid i.high i.exponent k
  if i.closed then low ≤ steps * den && steps * den ≤ high
  else low < steps * den && steps * den < high

/-- The point of the grid `10 ^ k` inside the interval that lies nearest to the value; of two equally
near points the upper one. -/
def Interval.nearest? (i : Interval) (k : Int) : Option Nat :=
  let (num, den) := onGrid i.value i.exponent k
  let below := num / den
  match i.contains k below, i.contains k (below + 1) with
  | true, true => some (roundDiv .away num den)
  | true, false => some below
  | false, true => some (below + 1)
  | false, false => none

/-- Tries the grids from `10 ^ (n - 326)` down; below `10 ^ (-325)` no double needs a digit. -/
def Interval.coarsest (i : Interval) : Nat → Nat × Int
  | 0 => (0, 0)
  | n + 1 =>
    let k : Int := n - 325
    match i.nearest? k with
    | some steps => (steps, k)
    | none => i.coarsest n

/-! ### Digits -/

/-- A decimal `0.d₁d₂d₃… · 10 ^ point` with no zero at either end of its digits. -/
structure Decimal where
  digits : List Char
  point : Int
  deriving DecidableEq, Repr

def decimalDigits (n : Nat) : List Char := (toString n).toList

/-- The decimal `steps · 10 ^ k`. -/
def Decimal.ofSteps (steps : Nat) (k : Int) : Decimal :=
  let digits := decimalDigits steps
  ⟨(digits.reverse.dropWhile (· == '0')).reverse, digits.length + k⟩

/-- The shortest decimal of a positive double. -/
def Decimal.shortest (significand : Nat) (exponent : Int) : Decimal :=
  let (steps, k) := (Interval.ofFinite significand exponent).coarsest 634
  .ofSteps steps k

/-! ### Written forms -/

/-- How a decimal is laid out: which positions of the point are written without an exponent, and
whether a whole number carries `.0`. -/
structure Layout where
  positional : Int → Bool
  wholeFraction : Bool

/-- Never an exponent, never a superfluous `.0`. -/
def Layout.plain : Layout := ⟨fun _ => true, false⟩

/-- An exponent below `10 ^ (-4)` and from `10 ^ 16` on; otherwise at least one fraction digit. -/
def Layout.detailed : Layout := ⟨fun point => decide (-4 < point ∧ point ≤ 16), true⟩

def Decimal.positional (d : Decimal) (wholeFraction : Bool) : List Char :=
  let length : Int := d.digits.length
  if d.point ≤ 0 then
    '0' :: '.' :: (List.replicate (-d.point).toNat '0' ++ d.digits)
  else if d.point < length then
    d.digits.take d.point.toNat ++ '.' :: d.digits.drop d.point.toNat
  else
    d.digits ++ List.replicate (d.point - length).toNat '0' ++
      (if wholeFraction then ['.', '0'] else [])

def Decimal.scientific (d : Decimal) : List Char :=
  let fraction := d.digits.drop 1
  d.digits.take 1 ++ (if fraction.isEmpty then [] else '.' :: fraction) ++
    'e' :: (toString (d.point - 1)).toList

def Decimal.layout (d : Decimal) (layout : Layout) : List Char :=
  if layout.positional d.point then d.positional layout.wholeFraction else d.scientific

def Layout.write (layout : Layout) (x : Float) : String :=
  match Binary64.ofFloat x with
  | .nan => "NaN"
  | .infinite negative => if negative then "-inf" else "inf"
  | .finite negative significand exponent =>
    let magnitude :=
      if significand = 0 then '0' :: (if layout.wholeFraction then ['.', '0'] else [])
      else (Decimal.shortest significand exponent).layout layout
    String.ofList (if negative then '-' :: magnitude else magnitude)

/-- The number as a reader writes it: shortest digits, no exponent. -/
def plain (x : Float) : String := Layout.plain.write x

/-- The number as a value is shown: shortest digits, fraction or exponent always visible. -/
def detailed (x : Float) : String := Layout.detailed.write x

/-! ### Fixed places -/

/-- A non-negative double with exactly one fraction digit; an exact half goes to the even digit. -/
def oneDecimal (x : Float) : String :=
  match Binary64.ofFloat x with
  | .finite _ significand exponent =>
    let tenths := Binary64.roundScaled .even 10 significand exponent
    toString (tenths / 10) ++ "." ++ toString (tenths % 10)
  | _ => plain x

end Redraw.Number
