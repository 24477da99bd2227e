import Ream.Beacon.SyncRewards
import Ream.Lib.Newton

/-!
# The integer square root

`integer_squareroot` runs Newton's iteration on `u64` and answers `UINT64_MAX_SQRT` for
`UINT64_MAX`. The step facts are those of `Lib/Newton`; here the `u64` arithmetic of every pass
is exact (`isqrtPassesInRange`).
-/

namespace Ream.Beacon.Electra

/-- The passes the loop of `integer_squareroot` makes from `x, y` within `fuel`: each divides by a
positive `y` and adds `y + n / y` below `2 ^ 64`, and the loop test fails before the fuel runs
out. -/
def isqrtPassesInRange (n : UInt64) : Nat → UInt64 → UInt64 → Bool
  | 0, x, y => !decide (y < x)
  | fuel + 1, x, y =>
    if y < x then
      decide (0 < y.toNat ∧ y.toNat + n.toNat / y.toNat < 2 ^ 64) &&
        isqrtPassesInRange n fuel y ((y + n / y) / 2)
    else true

/-- What the loop keeps between passes: `x` lies between the floor root of `n` and `n`, and a
positive `x` comes with `y`, the Newton step from it. -/
structure NewtonGuess (n x y : UInt64) : Prop where
  le : x.toNat ≤ n.toNat
  lt_succ_mul_self : n.toNat < (x.toNat + 1) * (x.toNat + 1)
  next : 0 < x.toNat → y.toNat = Newton.step n.toNat x.toNat

theorem toNat_lt_of_ne_max {n : UInt64} (hn : n ≠ UINT64_MAX) : n.toNat + 1 < 2 ^ 64 := by
  have hne : n.toNat ≠ 2 ^ 64 - 1 := fun h => hn (UInt64.toNat_inj.mp h)
  have := n.toNat_lt
  omega

theorem newtonGuess_start (n : UInt64) :
    NewtonGuess n n (if n % 2 > 0 then n / 2 + 1 else n / 2) where
  le := Nat.le_refl _
  lt_succ_mul_self := by nlinarith
  next hn := by
    have hhalf : n.toNat / 2 + 1 < 2 ^ 64 := by
      have := n.toNat_lt
      omega
    have h1 : (1 : UInt64).toNat = 1 := rfl
    have h2 : (2 : UInt64).toNat = 2 := rfl
    rw [Newton.step, Nat.div_self hn]
    split
    · rename_i hodd
      have hodd' : 0 < n.toNat % 2 := by
        simpa [UInt64.lt_iff_toNat_lt, UInt64.toNat_mod] using hodd
      rw [UInt64.toNat_add, UInt64.toNat_div, h1, h2, Nat.mod_eq_of_lt hhalf]
      omega
    · rename_i heven
      have heven' : n.toNat % 2 = 0 := by
        simpa [UInt64.lt_iff_toNat_lt, UInt64.toNat_mod] using heven
      rw [UInt64.toNat_div, h2]
      omega

/-- One pass, taken when `y < x`: it divides by a positive `y`, its sum does not overflow, and the
next guess keeps the invariant. -/
theorem newtonGuess_pass {n x y : UInt64} (hn : n ≠ UINT64_MAX) (h : NewtonGuess n x y)
    (hlt : y < x) :
    0 < y.toNat ∧ y.toNat + n.toNat / y.toNat < 2 ^ 64 ∧ NewtonGuess n y ((y + n / y) / 2) := by
  have hlt' : y.toNat < x.toNat := UInt64.lt_iff_toNat_lt.mp hlt
  have hx : 0 < x.toNat := by omega
  have hy : y.toNat = Newton.step n.toNat x.toNat := h.next hx
  have hpos : 0 < y.toNat := by
    rw [hy]
    exact Newton.step_pos hx (by have := h.le; omega)
  have hsum : y.toNat + n.toNat / y.toNat < 2 ^ 64 := by
    have := @Newton.add_div_le_succ n.toNat y.toNat hpos (by have := h.le; omega)
    have := toNat_lt_of_ne_max hn
    omega
  refine ⟨hpos, hsum, ⟨by have := h.le; omega, hy ▸ Newton.lt_succ_step_mul_self hx, fun _ => ?_⟩⟩
  rw [UInt64.toNat_div, UInt64.toNat_add, UInt64.toNat_div, Nat.mod_eq_of_lt hsum]
  rfl

theorem newtonGuess_exit {n x y : UInt64} (h : NewtonGuess n x y) (hge : ¬ y < x) :
    x.toNat * x.toNat ≤ n.toNat := by
  rcases Nat.eq_zero_or_pos x.toNat with h0 | hx
  · rw [h0]
    exact Nat.zero_le _
  · apply Newton.mul_self_le_of_le_step
    rw [← h.next hx]
    exact Nat.not_lt.mp (mt UInt64.lt_iff_toNat_lt.mpr hge)

theorem isqrtLoop_floor {n : UInt64} (hn : n ≠ UINT64_MAX) :
    ∀ (fuel : Nat) (x y : UInt64), NewtonGuess n x y → x.toNat ≤ fuel →
      (isqrtLoop n fuel x y).toNat * (isqrtLoop n fuel x y).toNat ≤ n.toNat ∧
      n.toNat < ((isqrtLoop n fuel x y).toNat + 1) * ((isqrtLoop n fuel x y).toNat + 1) ∧
      isqrtPassesInRange n fuel x y = true
  | 0, x, y, h, hfuel => by
    have hge : ¬ y < x := by
      rw [UInt64.lt_iff_toNat_lt]
      omega
    refine ⟨newtonGuess_exit h hge, h.lt_succ_mul_self, ?_⟩
    simp [isqrtPassesInRange, hge]
  | fuel + 1, x, y, h, hfuel => by
    by_cases hlt : y < x
    · obtain ⟨hpos, hsum, h'⟩ := newtonGuess_pass hn h hlt
      have hfuel' : y.toNat ≤ fuel := by
        have := UInt64.lt_iff_toNat_lt.mp hlt
        omega
      obtain ⟨hle, hlt', hpasses⟩ := isqrtLoop_floor hn fuel y _ h' hfuel'
      rw [isqrtLoop, if_pos hlt, isqrtPassesInRange, if_pos hlt]
      simp only [Bool.and_eq_true, decide_eq_true_eq]
      exact ⟨hle, hlt', ⟨hpos, hsum⟩, hpasses⟩
    · rw [isqrtLoop, if_neg hlt, isqrtPassesInRange, if_neg hlt]
      exact ⟨newtonGuess_exit h hlt, h.lt_succ_mul_self, rfl⟩

/-- `integer_squareroot` is the floor square root of every `u64`, over unbounded integers; below
`UINT64_MAX` the Newton loop ends within its `n` passes and every pass divides by a positive
value and adds without overflow. -/
theorem integerSquareroot_floor (n : UInt64) :
    (integerSquareroot n).toNat * (integerSquareroot n).toNat ≤ n.toNat ∧
    n.toNat < ((integerSquareroot n).toNat + 1) * ((integerSquareroot n).toNat + 1) ∧
    (n ≠ UINT64_MAX →
      isqrtPassesInRange n n.toNat n (if n % 2 > 0 then n / 2 + 1 else n / 2) = true) := by
  by_cases hn : n = UINT64_MAX
  · subst hn
    rw [integerSquareroot, if_pos rfl]
    exact ⟨by decide, by decide, fun h => absurd rfl h⟩
  · obtain ⟨hle, hlt, hpasses⟩ :=
      isqrtLoop_floor hn n.toNat n _ (newtonGuess_start n) (Nat.le_refl _)
    rw [integerSquareroot, if_neg hn]
    exact ⟨hle, hlt, fun _ => hpasses⟩

/-- Ten: the loop goes 10, 5, 3 and answers 3, every pass in range. -/
theorem integerSquareroot_ten :
    (integerSquareroot 10).toNat = 3 ∧ (10 : UInt64) ≠ UINT64_MAX ∧
      isqrtPassesInRange 10 (10 : UInt64).toNat 10
        (if (10 : UInt64) % 2 > 0 then 10 / 2 + 1 else 10 / 2) = true :=
  ⟨by decide, by decide, (integerSquareroot_floor 10).2.2 (by decide)⟩

end Ream.Beacon.Electra
