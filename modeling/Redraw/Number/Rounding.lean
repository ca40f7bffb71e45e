/-!
# Rounding of quotients

Nearest natural number to a quotient of naturals, with the two ways of settling an exact half that
the program needs.
-/

namespace Redraw.Number

/-- What becomes of a quotient that lies exactly between two integers. -/
inductive Tie where
  | away
  | even
  deriving DecidableEq, Repr

def roundDiv (tie : Tie) (num den : Nat) : Nat :=
  let quotient := num / den
  let twice := 2 * (num % den)
  if twice < den then quotient
  else if den < twice then quotient + 1
  else
    match tie with
    | .away => quotient + 1
    | .even => if quotient % 2 = 0 then quotient else quotient + 1

/-! ### Distance from the quotient -/

theorem roundDiv_cases (tie : Tie) (num den : Nat) :
    roundDiv tie num den = num / den ∧ 2 * (num % den) ≤ den ∨
      roundDiv tie num den = num / den + 1 ∧ den ≤ 2 * (num % den) := by
  simp only [roundDiv]
  split
  · exact Or.inl ⟨rfl, by omega⟩
  · split
    · exact Or.inr ⟨rfl, by omega⟩
    · cases tie with
      | away => exact Or.inr ⟨rfl, by omega⟩
      | even =>
        by_cases h : num / den % 2 = 0
        · simp only [h, if_true]
          exact Or.inl ⟨trivial, by omega⟩
        · simp only [h, if_false]
          exact Or.inr ⟨trivial, by omega⟩

/-- The rounded value is at most half a unit above the quotient. -/
theorem roundDiv_upper (tie : Tie) (num den : Nat) :
    2 * (den * roundDiv tie num den) ≤ 2 * num + den := by
  have hdiv := Nat.div_add_mod num den
  rcases roundDiv_cases tie num den with ⟨h, hr⟩ | ⟨h, hr⟩
  · rw [h]
    omega
  · rw [h, Nat.mul_add]
    omega

/-- The rounded value is at most half a unit below the quotient. -/
theorem roundDiv_lower (tie : Tie) (num den : Nat) (hden : 0 < den) :
    2 * num ≤ 2 * (den * roundDiv tie num den) + den := by
  have hdiv := Nat.div_add_mod num den
  have hlt := Nat.mod_lt num hden
  rcases roundDiv_cases tie num den with ⟨h, hr⟩ | ⟨h, hr⟩
  · rw [h]
    omega
  · rw [h, Nat.mul_add]
    omega

end Redraw.Number
