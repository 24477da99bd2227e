import Mathlib

/-!
# Newton's iteration for the integer square root

The step `(x + n / x) / 2` from a positive guess never falls below the floor root, and a step
that does not lower the guess means the guess is at most the root, so the loop that steps while
the guess falls ends at the floor root.
-/

namespace Newton

/-- One Newton step towards the square root of `n` from the guess `x`. -/
def step (n x : Nat) : Nat := (x + n / x) / 2

theorem lt_succ_step_mul_self {n x : Nat} (hx : 0 < x) :
    n < (step n x + 1) * (step n x + 1) := by
  have hq : n < x * (n / x + 1) := Nat.lt_mul_div_succ n hx
  have h2 : x + (n / x + 1) ≤ 2 * (step n x + 1) := by
    unfold step
    omega
  have h4 : 4 * n < 4 * ((step n x + 1) * (step n x + 1)) :=
    calc 4 * n < 4 * x * (n / x + 1) := by rw [Nat.mul_assoc]; omega
      _ ≤ (x + (n / x + 1)) ^ 2 := four_mul_le_sq_add _ _
      _ ≤ (2 * (step n x + 1)) ^ 2 := Nat.pow_le_pow_left h2 2
      _ = 4 * ((step n x + 1) * (step n x + 1)) := by ring
  omega

theorem mul_self_le_of_le_step {n x : Nat} (h : x ≤ step n x) : x * x ≤ n := by
  have hdiv : x ≤ n / x := by
    unfold step at h
    omega
  rcases Nat.eq_zero_or_pos x with rfl | hx
  · exact Nat.zero_le n
  · exact (Nat.le_div_iff_mul_le hx).mp hdiv

theorem step_pos {n x : Nat} (hx : 0 < x) (hn : 0 < n) : 0 < step n x := by
  have h := @lt_succ_step_mul_self n x hx
  rcases Nat.eq_zero_or_pos (step n x) with h0 | h0
  · rw [h0] at h
    omega
  · exact h0

theorem add_div_le_succ {n y : Nat} (hy : 0 < y) (hle : y ≤ n) : y + n / y ≤ n + 1 := by
  have hq : 1 ≤ n / y := (Nat.one_le_div_iff hy).mpr hle
  have hmul : y * (n / y) ≤ n := Nat.mul_div_le n y
  nlinarith

end Newton
