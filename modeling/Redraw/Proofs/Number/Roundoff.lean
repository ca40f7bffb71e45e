import Redraw.Proofs.Number.Exact

/-!
# Rounding errors

Sums, differences and products of doubles of moderate size lie within one part in `2 ^ 52` of the exact
result.
-/

namespace Redraw.Number

open Float.Model Float.Model.UnpackedFloat

/-! ### Packing a rounded number -/

/-- What is left of a result once it was packed into a double. -/
abbrev stored (u : UnpackedFloat) : UnpackedFloat := (Float.Model.pack u).unpack

theorem stored_zero (s : Sign) : stored (.zero s) = .zero s := by
  cases s <;> rfl

section Components

variable {m : Nat} (s : Sign) (hm : 0 < m)

theorem unpack_normal {biased : Nat} (hpos : 0 < biased) (hbelow : biased < 2047)
    (hfull : 2 ^ 52 ≤ m) (hfits : m < 2 ^ 53) :
    UnpackedFloat.unpack Format.binary64
      (packComponents Format.binary64 s (BitVec.ofNat 11 biased) (BitVec.ofNat 52 m)) =
        .finite s m (biased - 1075) hm := by
  have hexponent : (BitVec.ofNat 11 biased).toNat = biased := by
    rw [BitVec.toNat_ofNat, Nat.mod_eq_of_lt (by omega)]
  have hnotFull : BitVec.ofNat 11 biased ≠ -1#11 := by
    rw [ne_eq, ← BitVec.toNat_inj, hexponent]
    exact hbelow.ne
  have hnotEmpty : BitVec.ofNat 11 biased ≠ 0#11 := by
    rw [ne_eq, ← BitVec.toNat_inj, hexponent]
    exact hpos.ne'
  have hfraction : 2 ^ 52 + m % 2 ^ 52 = m := by omega
  simp only [UnpackedFloat.unpack, unpackMantissa_packComponents, unpackExponent_packComponents,
    unpackSign_packComponents, Sign.ofBitVec_toBitVec, hnotFull, hnotEmpty, if_false, toNat_leadingBit,
    BitVec.toNat_ofNat, hfraction, hexponent]
  rfl

theorem unpack_subnormal (hfits : m < 2 ^ 52) :
    UnpackedFloat.unpack Format.binary64
      (packComponents Format.binary64 s 0#11 (BitVec.ofNat 52 m)) = .finite s m (-1074) hm := by
  have hfraction : (BitVec.ofNat 52 m).toNat = m := by
    rw [BitVec.toNat_ofNat, Nat.mod_eq_of_lt hfits]
  have hnonzero : BitVec.ofNat 52 m ≠ 0#52 := by
    rw [ne_eq, ← BitVec.toNat_inj, hfraction]
    exact hm.ne'
  simp only [UnpackedFloat.unpack, unpackMantissa_packComponents, unpackExponent_packComponents,
    unpackSign_packComponents, Sign.ofBitVec_toBitVec, hnonzero, if_true, dite_false, hfraction]
  rfl

end Components

/-- A number in its canonical form survives packing. -/
theorem stored_finite {m : Nat} {e : Int} (hc : Canonical m e) (s : Sign) (hm : 0 < m) :
    stored (.finite s m e hm) = .finite s m e hm := by
  obtain ⟨hfits, hleast, hgreatest, hfull⟩ := hc
  have hbias : ((Format.binary64.exponentBias : Nat) : Int) = 1023 := rfl
  have hlog : m.log2 + 1 = Format.binary64.mantissaBits ↔ 2 ^ 52 ≤ m := by
    have hlt : m.log2 < 53 ↔ m < 2 ^ 53 := Nat.log2_lt hm.ne'
    have hle : 52 ≤ m.log2 ↔ 2 ^ 52 ≤ m := Nat.le_log2 hm.ne'
    show m.log2 + 1 = 53 ↔ _
    omega
  show UnpackedFloat.unpack Format.binary64 (UnpackedFloat.pack Format.binary64 _) = _
  simp only [UnpackedFloat.pack, hlog]
  generalize hbiased : (e + (Format.binary64.exponentBias : Int) + ((52 : Nat) : Int)).toNat = biased
  have hbelow : ¬2 ^ 11 ≤ biased + 1 := by omega
  rw [if_neg hbelow]
  by_cases hnormal : 2 ^ 52 ≤ m
  · have hexponent : (biased : Int) - 1075 = e := by omega
    rw [if_pos hnormal, unpack_normal s hm (by omega) (by omega) hnormal hfits]
    simp only [hexponent]
  · obtain rfl : e = -1074 := by omega
    rw [if_neg hnormal]
    exact unpack_subnormal s hm (by omega)

/-! ### Rounding a significand -/

theorem shiftRight_mantissa (em : ExtendedMantissa) (k : Nat) :
    (em >>> k).mantissa = em.mantissa / 2 ^ k := by
  induction k with
  | zero => exact (Nat.div_one _).symm
  | succ k ih =>
    show (em >>> k).mantissa / 2 = _
    rw [ih, Nat.div_div_eq_div_mul, ← Nat.pow_succ]

theorem roundedMantissa_bounds (em : ExtendedMantissa) :
    em.mantissa ≤ em.roundedMantissa ∧ em.roundedMantissa ≤ em.mantissa + 1 := by
  obtain ⟨m, roundBit, stickyBit⟩ := em
  cases roundBit <;> cases stickyBit <;>
    simp only [ExtendedMantissa.roundedMantissa, ExtendedMantissa.accuracy,
      Accuracy.roundToNearestEven] <;> omega

def target (m : Nat) (e : Int) : Int := max (m.log2 + e - 52) (-1074)

theorem targetExponent_eq (m : Nat) (e : Int) :
    Format.binary64.targetExponent (totalExponent m e) = target m e := by
  show max ((m.log2 : Int) + 1 + e - 53) (-1074) = _
  rw [target]
  omega

theorem shiftToTargetExponent_eq (m : Nat) (e : Int) :
    shiftToTargetExponent Format.binary64 m e .exact =
      ((⟨m, false, false⟩ : ExtendedMantissa) >>> (target m e - e).toNat,
        e + (target m e - e).toNat) := by
  rw [shiftToTargetExponent, targetExponent_eq]
  rfl

theorem shiftToTargetExponent_of_le {m : Nat} {e : Int} (h : target m e ≤ e) :
    shiftToTargetExponent Format.binary64 m e .exact = (⟨m, false, false⟩, e) := by
  rw [shiftToTargetExponent_eq, show (target m e - e).toNat = 0 by omega]
  exact Prod.ext rfl (add_zero e)

theorem shiftToTargetExponent_carry {e : Int} (h : -1074 ≤ e) :
    shiftToTargetExponent Format.binary64 (2 ^ 53) e .exact =
      (⟨2 ^ 52, false, false⟩, e + 1) := by
  have htarget : target (2 ^ 53) e = e + 1 := by
    rw [target, Nat.log2_two_pow]
    omega
  rw [shiftToTargetExponent_eq, htarget, show (e + 1 - e).toNat = 1 by omega]
  rfl

section Rounded

/-- The multiple of the target's power of two that a number is rounded to. -/
def rounded (m : Nat) (e : Int) : Nat :=
  ((⟨m, false, false⟩ : ExtendedMantissa) >>> (target m e - e).toNat).roundedMantissa

variable {m : Nat} {e : Int}

theorem rounded_bounds (m : Nat) (e : Int) :
    m / 2 ^ (target m e - e).toNat ≤ rounded m e ∧
      rounded m e ≤ m / 2 ^ (target m e - e).toNat + 1 := by
  have hbounds := roundedMantissa_bounds
    ((⟨m, false, false⟩ : ExtendedMantissa) >>> (target m e - e).toNat)
  rwa [shiftRight_mantissa] at hbounds

theorem rounded_le (m : Nat) (e : Int) : rounded m e ≤ 2 ^ 53 := by
  have hshift : m.log2 + 1 ≤ 53 + (target m e - e).toNat := by
    rw [target]
    omega
  have hlt : m < 2 ^ (53 + (target m e - e).toNat) :=
    Nat.lt_log2_self.trans_le (Nat.pow_le_pow_right (by decide) hshift)
  rw [Nat.pow_add] at hlt
  have hquotient := Nat.div_lt_of_lt_mul (Nat.mul_comm .. ▸ hlt)
  have hbounds := rounded_bounds m e
  omega

theorem le_rounded (hm : 0 < m) (hle : e ≤ target m e) (hleast : target m e ≠ -1074) :
    2 ^ 52 ≤ rounded m e := by
  have hshift : 52 + (target m e - e).toNat = m.log2 := by
    rw [target] at hle hleast ⊢
    omega
  refine le_trans ?_ (rounded_bounds m e).1
  rw [Nat.le_div_iff_mul_le (by positivity), ← Nat.pow_add, hshift]
  exact Nat.log2_self_le hm.ne'

/-- A quotient that was rounded either way misses by at most one divisor. -/
theorem quotient_close {r k : Nat} (hlower : m / 2 ^ k ≤ r) (hupper : r ≤ m / 2 ^ k + 1) :
    |(r : ℚ) * 2 ^ k - m| ≤ 2 ^ k := by
  have hdiv := Nat.div_add_mod m (2 ^ k)
  have hmod := Nat.mod_lt m (Nat.two_pow_pos k)
  have habove : r * 2 ^ k ≤ m + 2 ^ k := by
    have hle := Nat.mul_le_mul_right (2 ^ k) hupper
    rw [Nat.add_mul, Nat.mul_comm (m / 2 ^ k)] at hle
    omega
  have hbelow : m ≤ r * 2 ^ k + 2 ^ k := by
    have hle := Nat.mul_le_mul_right (2 ^ k) hlower
    rw [Nat.mul_comm (m / 2 ^ k)] at hle
    omega
  have habove' : (r : ℚ) * 2 ^ k ≤ m + 2 ^ k := by exact_mod_cast habove
  have hbelow' : (m : ℚ) ≤ r * 2 ^ k + 2 ^ k := by exact_mod_cast hbelow
  rw [abs_le]
  constructor <;> linarith

theorem rounded_close (hle : e ≤ target m e) :
    |(rounded m e : ℚ) * 2 ^ target m e - m * 2 ^ e| ≤ 2 ^ target m e := by
  obtain ⟨hlower, hupper⟩ := rounded_bounds m e
  generalize hk : (target m e - e).toNat = k at hlower hupper
  have htarget : target m e = e + k := by omega
  have hstep := quotient_close hlower hupper
  rw [htarget, zpow_add₀ (by norm_num), zpow_natCast]
  calc |(rounded m e : ℚ) * (2 ^ e * 2 ^ k) - m * 2 ^ e|
      = |(rounded m e : ℚ) * 2 ^ k - m| * 2 ^ e := by
        rw [← abs_of_pos (two_zpow_pos e), ← abs_mul, abs_of_pos (two_zpow_pos e)]
        ring_nf
    _ ≤ 2 ^ k * 2 ^ e := by gcongr
    _ = 2 ^ e * 2 ^ k := mul_comm _ _

theorem shiftToTargetExponent_rounded (m : Nat) (e : Int) :
    shiftToTargetExponent Format.binary64 (rounded m e) (target m e) .exact =
      if rounded m e = 2 ^ 53 then (⟨2 ^ 52, false, false⟩, target m e + 1)
      else (⟨rounded m e, false, false⟩, target m e) := by
  have hleast : -1074 ≤ target m e := le_max_right _ _
  have hfits := rounded_le m e
  -- what was rounded has its exponent already, unless a carry has made it one bit longer
  by_cases hcarry : rounded m e = 2 ^ 53
  · rw [if_pos hcarry, hcarry]
    exact shiftToTargetExponent_carry hleast
  · have hlog : (rounded m e).log2 ≤ 52 := by
      rcases Nat.eq_zero_or_pos (rounded m e) with hzero | hpos
      · rw [hzero]
        decide
      · exact Nat.le_of_lt_succ ((Nat.log2_lt hpos.ne').mpr (by omega))
    rw [if_neg hcarry]
    apply shiftToTargetExponent_of_le
    rw [target]
    omega

end Rounded

theorem roundWithAccuracy_eq (s : Sign) {m : Nat} {e : Int} (hle : e ≤ target m e) :
    roundWithAccuracy Format.binary64 s m e .exact =
      if h : rounded m e = 0 then .zero s
      else if rounded m e = 2 ^ 53 then .finite s (2 ^ 52) (target m e + 1) (by decide)
      else .finite s (rounded m e) (target m e) (Nat.pos_of_ne_zero h) := by
  have hexponent : e + ((target m e - e).toNat : Int) = target m e := by omega
  rw [roundWithAccuracy, shiftToTargetExponent_eq, hexponent]
  show (let (em, final) := shiftToTargetExponent Format.binary64 (rounded m e) (target m e) .exact
    if h : em.mantissa = 0 then UnpackedFloat.zero s
    else .finite s em.mantissa final (Nat.pos_of_ne_zero h)) = _
  rw [shiftToTargetExponent_rounded]
  by_cases hcarry : rounded m e = 2 ^ 53
  · simp only [hcarry, if_true]
    rfl
  · simp only [hcarry, if_false]

/-- Rounding to a multiple of the target's power of two ends in a double, unless it is too large. -/
theorem value_roundWithAccuracy (s : Sign) {m : Nat} {e : Int} (hm : 0 < m) (hle : e ≤ target m e)
    (hsmall : target m e ≤ 970) :
    (stored (roundWithAccuracy Format.binary64 s m e .exact)).isFinite = true ∧
      valueOf (stored (roundWithAccuracy Format.binary64 s m e .exact)) =
        signFactor s * (rounded m e * 2 ^ target m e) := by
  have hleast : -1074 ≤ target m e := le_max_right _ _
  have hfits := rounded_le m e
  have hfull := le_rounded hm hle
  rw [roundWithAccuracy_eq s hle]
  split
  next hzero =>
    rw [hzero, stored_zero, valueOf_zero, Nat.cast_zero, zero_mul, mul_zero]
    exact ⟨rfl, rfl⟩
  next hpos =>
    split
    next hcarry =>
      have hcanonical : Canonical (2 ^ 52) (target m e + 1) :=
        ⟨by decide, by omega, by omega, Or.inl le_rfl⟩
      rw [stored_finite hcanonical, valueOf_finite, hcarry, zpow_add₀ (by norm_num)]
      refine ⟨rfl, ?_⟩
      push_cast
      ring
    next hcarry =>
      have hcanonical : Canonical (rounded m e) (target m e) := by
        refine ⟨by omega, hleast, by omega, ?_⟩
        by_cases h : target m e = -1074
        · exact Or.inr h
        · exact Or.inl (hfull h)
      rw [stored_finite hcanonical, valueOf_finite]
      exact ⟨rfl, rfl⟩

/-! ### The error -/

/-- How far rounding may end from the exact result; the one covers what is too small to have a full
significand. -/
def roundoff (q : ℚ) : ℚ := (|q| + 1) / 2 ^ 52

structure Rounds (u : UnpackedFloat) (q : ℚ) : Prop where
  finite : u.isFinite = true
  close : |valueOf u - q| ≤ roundoff q

theorem roundoff_nonneg (q : ℚ) : 0 ≤ roundoff q := by
  unfold roundoff
  positivity

theorem roundoff_le {q bound : ℚ} (h : |q| ≤ bound) : roundoff q ≤ (bound + 1) / 2 ^ 52 := by
  unfold roundoff
  gcongr

theorem Rounds.of_eq {u : UnpackedFloat} {q : ℚ} (hfinite : u.isFinite = true)
    (h : valueOf u = q) : Rounds u q := by
  refine ⟨hfinite, ?_⟩
  rw [h, sub_self, abs_zero]
  exact roundoff_nonneg q

section Sizes

variable {m : Nat} {e : Int}

theorem two_zpow_log2_le (hm : 0 < m) (e : Int) : (2 : ℚ) ^ (m.log2 + e) ≤ m * 2 ^ e := by
  have hlog : (2 : ℚ) ^ m.log2 ≤ m := by exact_mod_cast Nat.log2_self_le hm.ne'
  rw [zpow_add₀ (by norm_num), zpow_natCast]
  gcongr

theorem target_le_of_small (hm : 0 < m) (h : (m : ℚ) * 2 ^ e ≤ 2 ^ 200) : target m e ≤ 970 := by
  have hpow : (2 : ℚ) ^ (m.log2 + e) ≤ 2 ^ (200 : Int) := (two_zpow_log2_le hm e).trans h
  rw [zpow_le_zpow_iff_right₀ (by norm_num)] at hpow
  rw [target]
  omega

theorem two_zpow_target_le (hm : 0 < m) (e : Int) :
    (2 : ℚ) ^ target m e ≤ (m * 2 ^ e + 1) / 2 ^ 52 := by
  have hpos : (0 : ℚ) ≤ m * 2 ^ e := by positivity
  rw [le_div_iff₀ (by positivity)]
  rcases max_choice ((m.log2 : Int) + e - 52) (-1074) with h | h
  · calc (2 : ℚ) ^ target m e * 2 ^ 52 = 2 ^ (m.log2 + e) := by
          rw [target, h, ← zpow_natCast, ← zpow_add₀ (by norm_num)]
          congr 1
          push_cast
          ring
      _ ≤ m * 2 ^ e := two_zpow_log2_le hm e
      _ ≤ m * 2 ^ e + 1 := by linarith
  · calc (2 : ℚ) ^ target m e * 2 ^ 52 = 2 ^ (-1022 : Int) := by
          rw [target, h, ← zpow_natCast, ← zpow_add₀ (by norm_num)]
          rfl
      _ ≤ 2 ^ (0 : Int) := zpow_le_zpow_right₀ (by norm_num) (by norm_num)
      _ ≤ m * 2 ^ e + 1 := by rw [zpow_zero]; linarith

end Sizes

theorem rounds_roundWithAccuracy (s : Sign) {m : Nat} {e : Int} (hm : 0 < m) (hle : e ≤ target m e)
    (hsmall : (m : ℚ) * 2 ^ e ≤ 2 ^ 200) :
    Rounds (stored (roundWithAccuracy Format.binary64 s m e .exact)) (signFactor s * (m * 2 ^ e)) := by
  obtain ⟨hfinite, hvalue⟩ := value_roundWithAccuracy s hm hle (target_le_of_small hm hsmall)
  refine ⟨hfinite, ?_⟩
  rw [hvalue, ← mul_sub, abs_signFactor_mul, roundoff, abs_signFactor_mul,
    abs_of_pos (value_pos hm e)]
  exact (rounded_close hle).trans (two_zpow_target_le hm e)

/-! ### Adding up -/

theorem shiftLeft_value (m k : Nat) (e : Int) :
    ((m <<< k : Nat) : ℚ) * 2 ^ (e - k) = m * 2 ^ e := by
  rw [Nat.shiftLeft_eq, zpow_sub₀ (by norm_num), zpow_natCast]
  push_cast
  rw [mul_assoc, ← mul_div_assoc, mul_div_cancel_left₀ _ (by positivity)]

theorem log2_shiftLeft {m : Nat} (hm : 0 < m) (k : Nat) : (m <<< k).log2 = m.log2 + k := by
  induction k with
  | zero => rfl
  | succ k ih =>
    have hne : m <<< k ≠ 0 := by
      rw [Nat.shiftLeft_eq]
      positivity
    rw [Nat.shiftLeft_succ, Nat.log2_two_mul hne, ih, Nat.add_assoc]

theorem rounds_round (s : Sign) {m : Nat} {e : Int} (hm : 0 < m)
    (hsmall : (m : ℚ) * 2 ^ e ≤ 2 ^ 200) :
    Rounds (stored (round Format.binary64 s m e)) (signFactor s * (m * 2 ^ e)) := by
  show Rounds (stored (roundWithAccuracy Format.binary64 s
    (m <<< (e - Format.binary64.targetExponent (totalExponent m e)).toNat) _ .exact)) _
  rw [targetExponent_eq]
  generalize hk : (e - target m e).toNat = k
  have hpos : 0 < m <<< k := by
    rw [Nat.shiftLeft_eq]
    positivity
  have htarget : target (m <<< k) (e - k) = target m e := by
    rw [target, target, log2_shiftLeft hm]
    push_cast
    omega
  rw [← shiftLeft_value m k e] at hsmall ⊢
  exact rounds_roundWithAccuracy s hpos (by omega) hsmall

theorem rounds_normalize (m e : Int) (zeroSign : Sign) (hsmall : |(m : ℚ) * 2 ^ e| ≤ 2 ^ 200) :
    Rounds (stored (normalize Format.binary64 m e zeroSign)) (m * 2 ^ e) := by
  rw [abs_mul, abs_of_pos (two_zpow_pos e)] at hsmall
  rw [UnpackedFloat.normalize]
  split
  next hlt =>
    have hneg : m < 0 := Int.compare_eq_lt.mp hlt
    have hcast : ((-m).toNat : ℚ) = -m := by
      exact_mod_cast Int.toNat_of_nonneg (show 0 ≤ -m by omega)
    rw [abs_of_neg (by exact_mod_cast hneg), ← hcast] at hsmall
    have hround := rounds_round .negative (show 0 < (-m).toNat by omega) hsmall
    rwa [hcast, signFactor, neg_one_mul, neg_mul, neg_neg] at hround
  next heq =>
    rw [Int.compare_eq_eq.mp heq, stored_zero]
    exact .of_eq rfl (by simp [valueOf_zero])
  next hgt =>
    have hpos : 0 < m := Int.compare_eq_gt.mp hgt
    have hcast : (m.toNat : ℚ) = m := by exact_mod_cast Int.toNat_of_nonneg hpos.le
    rw [abs_of_pos (by exact_mod_cast hpos), ← hcast] at hsmall
    have hround := rounds_round .positive (show 0 < m.toNat by omega) hsmall
    rwa [hcast, signFactor, one_mul] at hround

/-! ### The operations -/

theorem stored_self {u : UnpackedFloat} (h : FiniteForm u) : stored u = u := by
  cases h with
  | zero s => exact stored_zero s
  | finite s hm hc => exact stored_finite hc s hm

theorem rounds_self {u : UnpackedFloat} {q : ℚ} (h : FiniteForm u) (hq : valueOf u = q) :
    Rounds (stored u) q := by
  rw [stored_self h]
  exact .of_eq h.isFinite hq

theorem decreaseExponent_value (m : Nat) {e f : Int} (h : f ≤ e) :
    ((decreaseExponent m e f).1 : ℚ) * 2 ^ f = m * 2 ^ e := by
  have hvalue : ((decreaseExponent m e f).1 : ℚ) * 2 ^ (e - ((e - f).toNat : Int)) = m * 2 ^ e :=
    shiftLeft_value m (e - f).toNat e
  rwa [show e - ((e - f).toNat : Int) = f by omega] at hvalue

theorem rounds_add {u v : UnpackedFloat} (hu : FiniteForm u) (hv : FiniteForm v)
    (hsmall : |valueOf u + valueOf v| ≤ 2 ^ 200) :
    Rounds (stored (UnpackedFloat.add Format.binary64 u v)) (valueOf u + valueOf v) := by
  cases hu with
  | zero s =>
    rw [valueOf_zero, zero_add]
    cases hv with
    | zero t =>
      rw [valueOf_zero]
      cases s <;> cases t <;> exact rounds_self (.zero _) (valueOf_zero _)
    | finite t hn hcn => exact rounds_self (.finite t hn hcn) rfl
  | @finite s m e hm hcm =>
    cases hv with
    | zero t =>
      rw [valueOf_zero, add_zero]
      exact rounds_self (.finite s hm hcm) rfl
    | @finite t n f hn hcn =>
      have hvalue : ((s.apply (decreaseExponent m e (min e f)).1 +
          t.apply (decreaseExponent n f (min e f)).1 : Int) : ℚ) * 2 ^ min e f =
          valueOf (.finite s m e hm) + valueOf (.finite t n f hn) := by
        rw [Int.cast_add, add_mul, cast_apply, cast_apply, mul_assoc, mul_assoc,
          decreaseExponent_value m (min_le_left e f), decreaseExponent_value n (min_le_right e f),
          valueOf_finite, valueOf_finite]
      rw [← hvalue] at hsmall ⊢
      exact rounds_normalize _ _ .positive hsmall

theorem valueOf_neg (u : UnpackedFloat) : valueOf u.neg = -valueOf u := by
  cases u with
  | notANumber | infinity s => exact neg_zero.symm
  | zero s => rw [UnpackedFloat.neg, valueOf_zero, valueOf_zero, neg_zero]
  | finite s m e hm =>
    cases s with
    | positive => exact (valueOf_negative m e hm).trans (by rw [valueOf_positive])
    | negative => rw [valueOf_negative, neg_neg]; rfl

theorem finiteForm_neg {u : UnpackedFloat} (h : FiniteForm u) : FiniteForm u.neg := by
  cases h with
  | zero s => exact .zero _
  | finite s hm hc => exact .finite _ hm hc

theorem valueOf_abs (u : UnpackedFloat) : valueOf u.abs = |valueOf u| := by
  cases u with
  | notANumber | infinity s => exact abs_zero.symm
  | zero s => rw [UnpackedFloat.abs, valueOf_zero, valueOf_zero, abs_zero]
  | finite s m e hm =>
    rw [UnpackedFloat.abs, valueOf_positive, valueOf_finite, abs_signFactor_mul,
      abs_of_pos (value_pos hm e)]

theorem finiteForm_abs {u : UnpackedFloat} (h : FiniteForm u) : FiniteForm u.abs := by
  cases h with
  | zero s => exact .zero _
  | finite s hm hc => exact .finite _ hm hc

theorem sub_eq_add {u v : UnpackedFloat} (hu : FiniteForm u) (hv : FiniteForm v) :
    UnpackedFloat.sub Format.binary64 u v = UnpackedFloat.add Format.binary64 u v.neg := by
  cases hu with
  | zero s =>
    cases hv with
    | zero t => cases s <;> cases t <;> rfl
    | finite t hn hcn => rfl
  | finite s hm hcm =>
    cases hv with
    | zero t => rfl
    | finite t hn hcn =>
      cases t with
      | positive => rfl
      | negative =>
        exact congrArg (fun m => normalize Format.binary64 m _ .positive) (sub_neg_eq_add _ _)

theorem rounds_mul {u v : UnpackedFloat} (hu : FiniteForm u) (hv : FiniteForm v)
    (hsmall : |valueOf u * valueOf v| ≤ 2 ^ 200) :
    Rounds (stored (UnpackedFloat.mul Format.binary64 u v)) (valueOf u * valueOf v) := by
  cases hu with
  | zero s =>
    rw [valueOf_zero, zero_mul]
    cases hv with
    | zero t => exact rounds_self (.zero (s * t)) (valueOf_zero _)
    | finite t hn hcn => exact rounds_self (.zero (s * t)) (valueOf_zero _)
  | @finite s m e hm hcm =>
    cases hv with
    | zero t =>
      rw [valueOf_zero, mul_zero]
      exact rounds_self (.zero (s * t)) (valueOf_zero _)
    | @finite t n f hn hcn =>
      have hvalue : signFactor (s * t) * ((m * n : Nat) * 2 ^ (e + f)) =
          valueOf (.finite s m e hm) * valueOf (.finite t n f hn) := by
        rw [valueOf_finite, valueOf_finite, signFactor_mul, zpow_add₀ (by norm_num), Nat.cast_mul]
        ring
      have hpos : 0 < m * n := Nat.mul_pos hm hn
      -- a product with a full significand has at least as many bits
      have hle : e + f ≤ target (m * n) (e + f) := by
        have hlog : 2 ^ 52 ≤ m * n → 52 ≤ (m * n).log2 := (Nat.le_log2 hpos.ne').mpr
        rw [target]
        rcases hcm.full with hfull | hleast
        · have := hlog (hfull.trans (Nat.le_mul_of_pos_right m hn))
          omega
        rcases hcn.full with hfull | hleast'
        · have := hlog (hfull.trans (Nat.le_mul_of_pos_left n hm))
          omega
        · omega
      rw [← hvalue] at hsmall ⊢
      rw [abs_signFactor_mul, abs_of_pos (value_pos hpos _)] at hsmall
      exact rounds_roundWithAccuracy _ hpos hle hsmall

/-! ### On doubles -/

section OnDoubles

variable {x y : Float}

theorem Rounds.isFinite {q : ℚ} (h : Rounds x.toModel.unpack q) : x.isFinite = true := h.finite

theorem Rounds.toRat_close {q : ℚ} (h : Rounds x.toModel.unpack q) : |toRat x - q| ≤ roundoff q := by
  rw [toRat_eq]
  exact h.close

theorem add_rounds (hx : x.isFinite = true) (hy : y.isFinite = true)
    (hsmall : |toRat x + toRat y| ≤ 2 ^ 200) :
    Rounds (x + y).toModel.unpack (toRat x + toRat y) := by
  rw [toRat_eq, toRat_eq] at hsmall ⊢
  exact rounds_add (finiteForm_of_isFinite hx) (finiteForm_of_isFinite hy) hsmall

theorem mul_rounds (hx : x.isFinite = true) (hy : y.isFinite = true)
    (hsmall : |toRat x * toRat y| ≤ 2 ^ 200) :
    Rounds (x * y).toModel.unpack (toRat x * toRat y) := by
  rw [toRat_eq, toRat_eq] at hsmall ⊢
  exact rounds_mul (finiteForm_of_isFinite hx) (finiteForm_of_isFinite hy) hsmall

theorem sub_rounds (hx : x.isFinite = true) (hy : y.isFinite = true)
    (hsmall : |toRat x - toRat y| ≤ 2 ^ 200) :
    Rounds (x - y).toModel.unpack (toRat x - toRat y) := by
  have hu := finiteForm_of_isFinite hx
  have hv := finiteForm_of_isFinite hy
  have hvalue : toRat x - toRat y =
      valueOf x.toModel.unpack + valueOf y.toModel.unpack.neg := by
    rw [valueOf_neg, toRat_eq, toRat_eq, sub_eq_add_neg]
  show Rounds (stored (UnpackedFloat.sub Format.binary64 _ _)) _
  rw [sub_eq_add hu hv]
  rw [hvalue] at hsmall ⊢
  exact rounds_add hu (finiteForm_neg hv) hsmall

theorem neg_toRat (hx : x.isFinite = true) : (-x).isFinite = true ∧ toRat (-x) = -toRat x := by
  have hform := finiteForm_neg (finiteForm_of_isFinite hx)
  have hunpack : (-x).toModel.unpack = x.toModel.unpack.neg := stored_self hform
  rw [← hunpack] at hform
  refine ⟨hform.isFinite, ?_⟩
  rw [toRat_eq, hunpack, valueOf_neg, toRat_eq]

theorem abs_toRat (hx : x.isFinite = true) : x.abs.isFinite = true ∧ toRat x.abs = |toRat x| := by
  have hform := finiteForm_abs (finiteForm_of_isFinite hx)
  have hunpack : x.abs.toModel.unpack = x.toModel.unpack.abs := stored_self hform
  rw [← hunpack] at hform
  refine ⟨hform.isFinite, ?_⟩
  rw [toRat_eq, hunpack, valueOf_abs, toRat_eq]

theorem toRat_one : toRat (Float.ofBits 0x3FF0000000000000) = 1 := by
  have hparts : Binary64.ofFloat (Float.ofBits 0x3FF0000000000000) = .finite false (2 ^ 52) (-52) := by
    decide +kernel
  rw [toRat, hparts]
  norm_num [Binary64.value]

theorem ofNat_eq {n : Nat} (h : n < 2 ^ 53) :
    Float.ofNat n = n.toUInt64.toFloat * Float.ofBits 0x3FF0000000000000 := by
  show Float.ofScientific n false 0 = _
  rw [Float.ofScientific, dif_pos ⟨h, by decide⟩]
  rfl

theorem toFloat_rounds {n : Nat} (h : n < 2 ^ 53) :
    Rounds n.toUInt64.toFloat.toModel.unpack n := by
  have hkept : n.toUInt64.toNat = n := Nat.mod_eq_of_lt (h.trans (by decide))
  have hbelow : (n : ℚ) ≤ 2 ^ 200 := by
    have hlt : (n : ℚ) < 2 ^ 53 := by exact_mod_cast h
    exact hlt.le.trans (by norm_num)
  have hround := rounds_normalize n 0 .positive (by simpa using hbelow)
  rw [Int.cast_natCast, zpow_zero, mul_one] at hround
  show Rounds (stored (normalize Format.binary64 (n.toUInt64.toNat : Int) 0 .positive)) _
  rwa [hkept]

theorem ofNat_close {n : Nat} (h : n < 2 ^ 53) :
    (Float.ofNat n).isFinite = true ∧ |toRat (Float.ofNat n) - n| ≤ (n + 1) / 2 ^ 50 := by
  have hconverted := toFloat_rounds h
  have hn : (n : ℚ) < 2 ^ 53 := by exact_mod_cast h
  have hn' : (0 : ℚ) ≤ n := Nat.cast_nonneg n
  have hclose := abs_le.mp hconverted.toRat_close
  rw [roundoff, abs_of_nonneg hn'] at hclose
  have hsize : |toRat n.toUInt64.toFloat| ≤ n + (n + 1) / 2 ^ 52 := by
    rw [abs_le]
    constructor <;> linarith
  have hone : (Float.ofBits 0x3FF0000000000000).isFinite = true := by decide +kernel
  have hround := mul_rounds hconverted.isFinite hone (by
    rw [toRat_one, mul_one]
    calc |toRat n.toUInt64.toFloat| ≤ n + (n + 1) / 2 ^ 52 := hsize
      _ ≤ 2 ^ 53 + (2 ^ 53 + 1) / 2 ^ 52 := by gcongr
      _ ≤ 2 ^ 200 := by norm_num)
  have hclose' := abs_le.mp hround.toRat_close
  rw [toRat_one, mul_one, roundoff] at hclose'
  rw [ofNat_eq h]
  refine ⟨hround.isFinite, ?_⟩
  rw [abs_le]
  constructor <;> linarith

end OnDoubles

end Redraw.Number
