import Redraw.Number.Rounding

/-!
# Doubles as exact numbers

A double taken apart into sign, significand and power of two, and the roundings to integers that are
defined on that reading. Every function here is computed in exact integer arithmetic.
-/

namespace Redraw.Number

/-- A double read exactly: `finite` stands for `± significand · 2 ^ exponent`. -/
inductive Binary64 where
  | nan
  | infinite (negative : Bool)
  | finite (negative : Bool) (significand : Nat) (exponent : Int)
  deriving DecidableEq, Repr

namespace Binary64

/-- Reads the 64 bits of a double: sign, eleven exponent bits, fifty-two fraction bits. -/
def ofBits (bits : Nat) : Binary64 :=
  let negative := decide (bits / Nat.pow 2 63 % 2 = 1)
  let biased : Nat := bits / Nat.pow 2 52 % Nat.pow 2 11
  let fraction : Nat := bits % Nat.pow 2 52
  if biased = 2047 then
    if fraction = 0 then .infinite negative else .nan
  else if biased = 0 then .finite negative fraction (-1074)
  else .finite negative (Nat.pow 2 52 + fraction) ((biased : Int) - 1075)

def ofFloat (x : Float) : Binary64 := ofBits x.toBits.toNat

/-- The integer nearest to `significand · 2 ^ exponent · scale`. -/
def roundScaled (tie : Tie) (scale significand : Nat) : Int → Nat
  | .ofNat e => significand * Nat.pow 2 e * scale
  | .negSucc e => roundDiv tie (significand * scale) (Nat.pow 2 (e + 1))

/-- The largest integer that is at most `significand · 2 ^ exponent`. -/
def truncate (significand : Nat) : Int → Nat
  | .ofNat e => significand * Nat.pow 2 e
  | .negSucc e => significand / Nat.pow 2 (e + 1)

theorem roundScaled_ofNat (tie : Tie) (scale significand e : Nat) :
    roundScaled tie scale significand (.ofNat e) = significand * Nat.pow 2 e * scale := rfl

end Binary64

/-! ### Integers of the machine -/

def minInt64 : Int := -9223372036854775808

def maxInt64 : Int := 9223372036854775807

def maxNat64 : Nat := 18446744073709551615

/-- The signed 64-bit integer nearest to `n`: values outside the range stop at its ends. -/
def clampInt64 (n : Int) : Int := max minInt64 (min maxInt64 n)

theorem clampInt64_of_mem {n : Int} (hl : minInt64 ≤ n) (hu : n ≤ maxInt64) :
    clampInt64 n = n := by
  simp only [clampInt64]
  omega

/-- The nearest 64-bit integer; halves go away from zero, what is not a number gives zero. -/
def nearestInt64 (x : Float) : Int :=
  match Binary64.ofFloat x with
  | .nan => 0
  | .infinite negative => if negative then minInt64 else maxInt64
  | .finite negative significand exponent =>
    let magnitude := Binary64.roundScaled .away 1 significand exponent
    clampInt64 (if negative then -magnitude else magnitude)

/-- The nearest natural number below `2 ^ 64`; halves go up, negative values give zero. -/
def nearestNat64 (x : Float) : Nat :=
  match Binary64.ofFloat x with
  | .nan => 0
  | .infinite negative => if negative then 0 else maxNat64
  | .finite negative significand exponent =>
    if negative then 0 else min maxNat64 (Binary64.roundScaled .away 1 significand exponent)

/-- The largest natural number below `2 ^ 64` that is at most `x`; negative values give zero. -/
def floorNat64 (x : Float) : Nat :=
  match Binary64.ofFloat x with
  | .nan => 0
  | .infinite negative => if negative then 0 else maxNat64
  | .finite negative significand exponent =>
    if negative then 0 else min maxNat64 (Binary64.truncate significand exponent)

/-- The whole double nearest to `x`, halves away from zero. -/
def nearestWhole (x : Float) : Float :=
  match Binary64.ofFloat x with
  | .finite negative significand (.negSucc e) =>
    let whole := Float.ofNat (Binary64.roundScaled .away 1 significand (.negSucc e))
    if negative then -whole else whole
  | _ => x

/-! ### Comparisons that pass over what is not a number -/

/-- The greater of two doubles; a double that is not a number loses. -/
def greater (a b : Float) : Float :=
  if b ≤ a || b.isNaN then a else b

def clamp (low high x : Float) : Float :=
  if x < low then low else if high < x then high else x

end Redraw.Number
