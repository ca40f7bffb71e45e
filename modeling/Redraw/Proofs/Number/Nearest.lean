import Redraw.Proofs.Number.Roundoff

namespace Redraw.Number

theorem roundDiv_close (tie : Tie) (num : Nat) {den : Nat} (hden : 0 < den) :
    |(roundDiv tie num den : ℚ) - num / den| ≤ 1 / 2 := by
  have hden' : (0 : ℚ) < den := by exact_mod_cast hden
  have hupper : 2 * ((den : ℚ) * roundDiv tie num den) ≤ 2 * num + den := by
    exact_mod_cast roundDiv_upper tie num den
  have hlower : 2 * (num : ℚ) ≤ 2 * (den * roundDiv tie num den) + den := by
    exact_mod_cast roundDiv_lower tie num den hden
  have hquotient : (num : ℚ) = den * (num / den) := by
    rw [← mul_div_assoc, mul_div_cancel_left₀ _ hden'.ne']
  generalize (num : ℚ) / den = quotient at hquotient ⊢
  rw [hquotient] at hupper hlower
  have habove : (roundDiv tie num den : ℚ) ≤ quotient + 1 / 2 :=
    le_of_mul_le_mul_left (by linarith) hden'
  have hbelow : quotient - 1 / 2 ≤ (roundDiv tie num den : ℚ) :=
    le_of_mul_le_mul_left (by linarith) hden'
  rw [abs_le]
  constructor <;> linarith

theorem roundScaled_whole (tie : Tie) (significand e : Nat) :
    (Binary64.roundScaled tie 1 significand (.ofNat e) : ℚ) = significand * 2 ^ (Int.ofNat e) := by
  rw [Binary64.roundScaled_ofNat, Nat.mul_one]
  show ((significand * 2 ^ e : Nat) : ℚ) = significand * 2 ^ (e : Int)
  rw [zpow_natCast, Nat.cast_mul, Nat.cast_pow, Nat.cast_ofNat]

theorem roundScaled_close (tie : Tie) (significand : Nat) (exponent : Int) :
    |(Binary64.roundScaled tie 1 significand exponent : ℚ) - significand * 2 ^ exponent| ≤ 1 / 2 := by
  cases exponent with
  | ofNat e =>
    rw [roundScaled_whole, sub_self, abs_zero]
    norm_num
  | negSucc e =>
    have hclose := roundDiv_close tie significand (Nat.two_pow_pos (e + 1))
    rw [Nat.cast_pow, Nat.cast_ofNat] at hclose
    show |(roundDiv tie (significand * 1) (2 ^ (e + 1)) : ℚ) - _| ≤ _
    rwa [Nat.mul_one, zpow_negSucc, ← div_eq_mul_inv]

theorem exists_parts {x : Float} (hx : x.isFinite = true) :
    ∃ negative significand exponent,
      Binary64.ofFloat x = .finite negative significand exponent := by
  rw [ofFloat_eq]
  generalize x.toModel.unpack = u, finiteForm_of_isFinite hx = hform
  cases hform <;> exact ⟨_, _, _, rfl⟩

theorem signed_close (negative : Bool) {magnitude : Nat} {significand : Nat} {exponent : Int}
    (h : |(magnitude : ℚ) - significand * 2 ^ exponent| ≤ 1 / 2) :
    |((if negative then -magnitude else magnitude : Int) : ℚ) -
      (Binary64.finite negative significand exponent).value| ≤ 1 / 2 := by
  cases negative with
  | false => simpa [Binary64.value] using h
  | true =>
    rw [abs_sub_comm] at h
    simpa [Binary64.value, neg_mul, ← sub_eq_neg_add] using h

theorem clampInt64_of_small {n : Int} (h : |(n : ℚ)| ≤ 2 ^ 61) : clampInt64 n = n := by
  have hsmall : |n| ≤ 2 ^ 61 := by exact_mod_cast h
  rw [abs_le] at hsmall
  apply clampInt64_of_mem
  · rw [minInt64]
    omega
  · rw [maxInt64]
    omega

theorem nearestInt64_eq {x : Float} {negative : Bool} {significand : Nat} {exponent : Int}
    (hparts : Binary64.ofFloat x = .finite negative significand exponent)
    (hsmall : |toRat x| ≤ 2 ^ 60) :
    nearestInt64 x = if negative then -(Binary64.roundScaled .away 1 significand exponent : Int)
      else Binary64.roundScaled .away 1 significand exponent := by
  have hclose := signed_close negative (roundScaled_close .away significand exponent)
  rw [toRat, hparts] at hsmall
  rw [nearestInt64, hparts]
  apply clampInt64_of_small
  rw [abs_le] at *
  constructor <;> linarith

theorem nearestInt64_close {x : Float} (hx : x.isFinite = true) (hsmall : |toRat x| ≤ 2 ^ 60) :
    |(nearestInt64 x : ℚ) - toRat x| ≤ 1 / 2 := by
  obtain ⟨negative, significand, exponent, hparts⟩ := exists_parts hx
  rw [nearestInt64_eq hparts hsmall, toRat, hparts]
  exact signed_close negative (roundScaled_close .away significand exponent)

theorem abs_value (negative : Bool) (significand : Nat) (exponent : Int) :
    |(Binary64.finite negative significand exponent).value| = significand * 2 ^ exponent := by
  have hpos : (0 : ℚ) ≤ significand * 2 ^ exponent := by positivity
  cases negative with
  | false => exact abs_of_nonneg hpos
  | true => simp [Binary64.value]

/-- A number without a fraction is its own nearest integer; any other is rounded to an integer, which
is then written as a double. -/
theorem nearestWhole_close {x : Float} (hx : x.isFinite = true) (hsmall : |toRat x| ≤ 2 ^ 50) :
    (nearestWhole x).isFinite = true ∧
      |toRat (nearestWhole x) - nearestInt64 x| ≤ (|toRat x| + 2) / 2 ^ 50 := by
  obtain ⟨negative, significand, exponent, hparts⟩ := exists_parts hx
  rw [nearestInt64_eq hparts (hsmall.trans (by norm_num))]
  cases exponent with
  | ofNat e =>
    have hwhole : nearestWhole x = x := by rw [nearestWhole, hparts]
    have hvalue := roundScaled_whole .away significand e
    generalize Binary64.roundScaled .away 1 significand (.ofNat e) = magnitude at hvalue ⊢
    have hexact : toRat x = ((if negative then -magnitude else magnitude : Int) : ℚ) := by
      rw [toRat, hparts]
      cases negative with
      | false => simp [Binary64.value, hvalue]
      | true => simp [Binary64.value, hvalue]
    rw [hwhole, ← hexact, sub_self, abs_zero]
    exact ⟨hx, by positivity⟩
  | negSucc e =>
    have hclose := abs_le.mp (roundScaled_close .away significand (.negSucc e))
    have hsize : |toRat x| = significand * 2 ^ (Int.negSucc e) := by
      rw [toRat, hparts, abs_value]
    rw [← hsize] at hclose
    rw [nearestWhole, hparts]
    simp only
    generalize Binary64.roundScaled .away 1 significand (.negSucc e) = magnitude at hclose ⊢
    have hbelow : magnitude < 2 ^ 53 := by
      have hlt : (magnitude : ℚ) < 2 ^ 53 := by
        calc (magnitude : ℚ) ≤ 2 ^ 50 + 1 / 2 := by linarith [hclose.2]
          _ < 2 ^ 53 := by norm_num
      exact_mod_cast hlt
    obtain ⟨hfinite, hwritten⟩ := ofNat_close hbelow
    have herror : |toRat (Float.ofNat magnitude) - magnitude| ≤ (|toRat x| + 2) / 2 ^ 50 :=
      hwritten.trans (div_le_div_of_nonneg_right (by linarith [hclose.2]) (by norm_num))
    cases negative with
    | false => exact ⟨hfinite, herror⟩
    | true =>
      obtain ⟨hfinite', hneg⟩ := neg_toRat hfinite
      refine ⟨hfinite', ?_⟩
      rw [if_pos rfl, if_pos rfl, hneg, Int.cast_neg, Int.cast_natCast, neg_sub_neg, abs_sub_comm]
      exact herror

end Redraw.Number
