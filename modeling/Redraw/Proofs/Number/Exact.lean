import Mathlib
import Redraw.Number.Binary64

/-!
# Doubles as rational numbers

A double is taken apart into a significand and an exponent in one way only, so the order of finite doubles
is the order of their rationals.
-/

namespace Redraw.Number

open Float.Model Float.Model.UnpackedFloat

/-- The rational that is read; zero for what is not finite. -/
def Binary64.value : Binary64 → ℚ
  | .finite negative significand exponent =>
    (if negative then -(significand : ℚ) else significand) * 2 ^ exponent
  | _ => 0

def toRat (x : Float) : ℚ := (Binary64.ofFloat x).value

/-! ### The parts of a double -/

def isNegative : Sign → Bool
  | .negative => true
  | .positive => false

/-- The same reading of a double that was taken apart before. -/
def Binary64.ofUnpacked : UnpackedFloat → Binary64
  | .notANumber => .nan
  | .infinity s => .infinite (isNegative s)
  | .zero s => .finite (isNegative s) 0 (-1074)
  | .finite s significand exponent _ => .finite (isNegative s) significand exponent

section Bits

variable (b : BitVec 64)

theorem toNat_unpackMantissa :
    (@unpackMantissa Format.binary64 b).toNat = b.toNat % 2 ^ 52 := by
  simp [unpackMantissa]

theorem toNat_unpackExponent :
    (@unpackExponent Format.binary64 b).toNat = b.toNat / 2 ^ 52 % 2 ^ 11 := by
  simp [unpackExponent, Nat.shiftRight_eq_div_pow]

theorem isNegative_unpackSign :
    isNegative (Sign.ofBitVec (@unpackSign Format.binary64 b)) =
      decide (b.toNat / 2 ^ 63 % 2 = 1) := by
  have hbit : (@unpackSign Format.binary64 b).toNat = b.toNat / 2 ^ 63 % 2 := by
    simp [unpackSign, Nat.shiftRight_eq_div_pow]
  rw [← hbit]
  generalize @unpackSign Format.binary64 b = bit
  revert bit
  decide

theorem toNat_leadingBit (m : BitVec 52) : (1#1 ++ m).toNat = 2 ^ 52 + m.toNat := by
  rw [BitVec.toNat_append, ← Nat.shiftLeft_add_eq_or_of_lt m.isLt]
  rfl

theorem Binary64.ofBits_eq : ofBits b.toNat = ofUnpacked (UnpackedFloat.unpack Format.binary64 b) := by
  have hmantissa := toNat_unpackMantissa b
  have hexponent := toNat_unpackExponent b
  have hsign := isNegative_unpackSign b
  generalize hm : @unpackMantissa Format.binary64 b = m at *
  generalize he : @unpackExponent Format.binary64 b = e at *
  have hfull : e = -1#_ ↔ e.toNat = 2047 := by
    rw [← BitVec.toNat_inj]
    rfl
  have hempty : e = 0#_ ↔ e.toNat = 0 := by
    rw [← BitVec.toNat_inj]
    rfl
  have hfraction : m = 0#_ ↔ m.toNat = 0 := by
    rw [← BitVec.toNat_inj]
    rfl
  simp only [ofBits, UnpackedFloat.unpack, hm, he, hfull, hempty, hfraction]
  show (if b.toNat / 2 ^ 52 % 2 ^ 11 = 2047 then
      if b.toNat % 2 ^ 52 = 0 then infinite (decide (b.toNat / 2 ^ 63 % 2 = 1)) else nan
    else if b.toNat / 2 ^ 52 % 2 ^ 11 = 0 then
      finite (decide (b.toNat / 2 ^ 63 % 2 = 1)) (b.toNat % 2 ^ 52) (-1074)
    else finite (decide (b.toNat / 2 ^ 63 % 2 = 1)) (2 ^ 52 + b.toNat % 2 ^ 52)
      (((b.toNat / 2 ^ 52 % 2 ^ 11 : Nat) : Int) - 1075)) = _
  rw [← hmantissa, ← hexponent, ← hsign]
  by_cases h2047 : e.toNat = 2047
  · by_cases h0 : m.toNat = 0 <;> simp only [h2047, h0, if_true, if_false, ofUnpacked]
  by_cases hsub : e.toNat = 0
  · by_cases h0 : m.toNat = 0
    · simp [hsub, h0, ofUnpacked]
    · simp [hsub, h0, ofUnpacked, Format.exponentBias]
  · simp [h2047, hsub, ofUnpacked, Format.exponentBias, toNat_leadingBit]

end Bits

theorem ofFloat_eq (x : Float) :
    Binary64.ofFloat x = .ofUnpacked x.toModel.unpack := Binary64.ofBits_eq x.toBits.toBitVec

/-- How a finite number is written down: with the least exponent, or with all bits of the significand. -/
structure Canonical (significand : Nat) (exponent : Int) : Prop where
  fits : significand < 2 ^ 53
  least : -1074 ≤ exponent
  greatest : exponent ≤ 971
  full : 2 ^ 52 ≤ significand ∨ exponent = -1074

theorem canonical_ofBits {bits : Nat} {negative : Bool} {significand : Nat} {exponent : Int}
    (h : Binary64.ofBits bits = .finite negative significand exponent) :
    Canonical significand exponent := by
  have hfraction : bits % Nat.pow 2 52 < 2 ^ 52 := Nat.mod_lt _ (by decide)
  have hbiased : bits / Nat.pow 2 52 % Nat.pow 2 11 < 2048 := Nat.mod_lt _ (by decide)
  simp only [Binary64.ofBits] at h
  generalize bits % Nat.pow 2 52 = fraction at h hfraction
  generalize bits / Nat.pow 2 52 % Nat.pow 2 11 = biased at h hbiased
  split at h
  · split at h <;> cases h
  split at h
  · cases h
    exact ⟨by omega, by omega, by omega, Or.inr rfl⟩
  · cases h
    have hpow : Nat.pow 2 52 = 2 ^ 52 := rfl
    rw [hpow]
    exact ⟨by omega, by omega, by omega, Or.inl (by omega)⟩

theorem canonical_unpack {x : Float.Model} {s : Sign} {m : Nat} {e : Int} {hm : 0 < m}
    (h : x.unpack = .finite s m e hm) : Canonical m e := by
  have hbits := Binary64.ofBits_eq x.toBits.toBitVec
  rw [show UnpackedFloat.unpack Format.binary64 x.toBits.toBitVec = _ from h] at hbits
  exact canonical_ofBits hbits

/-! ### Values -/

/-- The rational of a double that was taken apart. -/
def valueOf (u : UnpackedFloat) : ℚ := (Binary64.ofUnpacked u).value

theorem toRat_eq (x : Float) : toRat x = valueOf x.toModel.unpack := by
  rw [toRat, ofFloat_eq, valueOf]

theorem valueOf_positive (m : Nat) (e : Int) (hm : 0 < m) :
    valueOf (.finite .positive m e hm) = m * 2 ^ e := rfl

theorem valueOf_negative (m : Nat) (e : Int) (hm : 0 < m) :
    valueOf (.finite .negative m e hm) = -(m * 2 ^ e) := neg_mul _ _

def signFactor : Sign → ℚ
  | .negative => -1
  | .positive => 1

theorem cast_apply (s : Sign) (m : Nat) : ((s.apply m : Int) : ℚ) = signFactor s * m := by
  cases s <;> simp [Sign.apply, signFactor]

theorem signFactor_mul (s t : Sign) : signFactor (s * t) = signFactor s * signFactor t := by
  cases s <;> cases t <;> decide +kernel

theorem abs_signFactor_mul (s : Sign) (q : ℚ) : |signFactor s * q| = |q| := by
  cases s <;> simp [signFactor]

theorem valueOf_finite (s : Sign) (m : Nat) (e : Int) (hm : 0 < m) :
    valueOf (.finite s m e hm) = signFactor s * (m * 2 ^ e) := by
  cases s <;> simp [valueOf_positive, valueOf_negative, signFactor]

theorem valueOf_zero (s : Sign) : valueOf (.zero s) = 0 := by
  cases s <;> simp [valueOf, Binary64.ofUnpacked, Binary64.value, isNegative]

theorem two_zpow_pos (e : Int) : (0 : ℚ) < 2 ^ e := zpow_pos (by norm_num) e

theorem value_pos {m : Nat} (hm : 0 < m) (e : Int) : (0 : ℚ) < m * 2 ^ e := by
  have hm' : (0 : ℚ) < m := by exact_mod_cast hm
  exact mul_pos hm' (two_zpow_pos e)

/-- Among canonical forms the exponent decides before the significand does. -/
theorem Canonical.value_le {m n : Nat} {e f : Int} (hm : Canonical m e) (hn : Canonical n f)
    (h : ((compare e f).then (compare m n)).isLE = true) : (m : ℚ) * 2 ^ e ≤ n * 2 ^ f := by
  rcases lt_trichotomy e f with hlt | heq | hgt
  · have hfull := hn.full.resolve_right (by have := hm.least; omega)
    have hbelow : (m : ℚ) ≤ 2 ^ 53 := by exact_mod_cast hm.fits.le
    have habove : (2 : ℚ) ^ 52 ≤ n := by exact_mod_cast hfull
    calc (m : ℚ) * 2 ^ e ≤ 2 ^ 53 * 2 ^ e := by gcongr
      _ = 2 ^ 52 * 2 ^ (e + 1) := by rw [zpow_add₀ (by norm_num)]; ring
      _ ≤ n * 2 ^ f := by
        gcongr
        · norm_num
        · omega
  · subst heq
    have hle : m ≤ n := by
      rw [show compare e e = .eq from Std.ReflCmp.compare_self, Ordering.eq_then] at h
      exact Nat.isLE_compare.mp h
    have hle' : (m : ℚ) ≤ n := by exact_mod_cast hle
    gcongr
  · have hcompare : compare e f = .gt := Int.compare_eq_gt.mpr hgt
    rw [hcompare] at h
    cases h

/-! ### Finite doubles -/

/-- What a finite double is taken apart into. -/
inductive FiniteForm : UnpackedFloat → Prop
  | zero (s : Sign) : FiniteForm (.zero s)
  | finite (s : Sign) {m : Nat} {e : Int} (hm : 0 < m) (hc : Canonical m e) :
    FiniteForm (.finite s m e hm)

theorem FiniteForm.isFinite {u : UnpackedFloat} (h : FiniteForm u) : u.isFinite = true := by
  cases h <;> rfl

theorem finiteForm_of_isFinite {x : Float} (h : x.isFinite = true) :
    FiniteForm x.toModel.unpack := by
  have hfinite : x.toModel.unpack.isFinite = true := h
  cases hu : x.toModel.unpack with
  | notANumber | infinity s =>
    rw [hu] at hfinite
    cases hfinite
  | zero s => exact .zero s
  | finite s m e hm => exact .finite s hm (canonical_unpack hu)

theorem valueOf_le {u v : UnpackedFloat} (hu : FiniteForm u) (hv : FiniteForm v)
    (h : u.le v = true) : valueOf u ≤ valueOf v := by
  cases hu with
  | zero s =>
    cases hv with
    | zero t => rw [valueOf_zero, valueOf_zero]
    | @finite t n f hn hcn =>
      cases t with
      | negative => cases h
      | positive => exact (valueOf_zero s).trans_le (value_pos hn f).le
  | @finite s m e hm hcm =>
    cases hv with
    | zero t =>
      cases s with
      | negative =>
        rw [valueOf_negative, valueOf_zero]
        linarith [value_pos hm e]
      | positive => cases h
    | @finite t n f hn hcn =>
      cases s with
      | negative =>
        cases t with
        | negative =>
          rw [valueOf_negative, valueOf_negative, neg_le_neg_iff]
          apply hcn.value_le hcm
          rwa [← Int.compare_swap, ← Nat.compare_swap, ← Ordering.swap_then]
        | positive =>
          rw [valueOf_negative, valueOf_positive]
          linarith [value_pos hm e, value_pos hn f]
      | positive =>
        cases t with
        | negative => cases h
        | positive => exact hcm.value_le hcn h

theorem toRat_le {x y : Float} (hx : x.isFinite = true) (hy : y.isFinite = true) (h : x ≤ y) :
    toRat x ≤ toRat y := by
  rw [toRat_eq, toRat_eq]
  exact valueOf_le (finiteForm_of_isFinite hx) (finiteForm_of_isFinite hy) (of_decide_eq_true h)

end Redraw.Number
