/-!
# Rounding a quotient

A quotient of natural numbers is rounded to the nearest whole number, and a half goes to the
even neighbour.

## Main statements

`two_mul_roundDiv_le` and `le_two_mul_roundDiv` say that the result is within half a unit of the
quotient.
-/

namespace Turnstile

/-- The whole number nearest to a quotient, the even one of two that are equally near. -/
def roundDiv (num den : Nat) : Nat :=
  if 2 * (num % den) < den then num / den
  else if den < 2 * (num % den) then num / den + 1
  else num / den + num / den % 2

theorem two_mul_roundDiv_le (num : Nat) {den : Nat} (h : 0 < den) :
    2 * (roundDiv num den * den) ≤ 2 * num + den := by
  have hsplit : num / den * den + num % den = num := Nat.div_add_mod' num den
  have hparity : num / den % 2 = 0 ∨ num / den % 2 = 1 := by omega
  unfold roundDiv
  split
  · omega
  · split
    · rw [Nat.add_mul]
      omega
    · cases hparity with
      | inl heven =>
          rw [heven, Nat.add_zero]
          omega
      | inr hodd =>
          rw [hodd, Nat.add_mul]
          omega

theorem le_two_mul_roundDiv (num : Nat) {den : Nat} (h : 0 < den) :
    2 * num ≤ 2 * (roundDiv num den * den) + den := by
  have hsplit : num / den * den + num % den = num := Nat.div_add_mod' num den
  have hrest : num % den < den := Nat.mod_lt num h
  have hparity : num / den % 2 = 0 ∨ num / den % 2 = 1 := by omega
  unfold roundDiv
  split
  · omega
  · split
    · rw [Nat.add_mul]
      omega
    · cases hparity with
      | inl heven =>
          rw [heven, Nat.add_zero]
          omega
      | inr hodd =>
          rw [hodd, Nat.add_mul]
          omega

end Turnstile
