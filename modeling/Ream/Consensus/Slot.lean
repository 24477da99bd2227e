import Mathlib

/-!
# Justifiable slots and relative bit positions

`slot.rs` of the Lean consensus: `justifiedIndexAfter` and the 3SF-mini rule
`isJustifiableAfter`. The discriminant is formed in `u128`, so none of these operations wraps.
-/

namespace Ream.Consensus

/-- `is_justifiable_after`. -/
def isJustifiableAfter (candidateSlot finalizedSlot : Nat) : Bool :=
  if candidateSlot < finalizedSlot then false
  else
    let delta := candidateSlot - finalizedSlot
    let pronicDiscriminant := 4 * delta + 1
    let discriminantRoot := pronicDiscriminant.sqrt
    decide (delta ≤ 5) || delta.sqrt ^ 2 == delta ||
      (discriminantRoot ^ 2 == pronicDiscriminant && discriminantRoot % 2 == 1)

/-- `justified_index_after`. -/
def justifiedIndexAfter (candidateSlot finalizedSlot : Nat) : Option Nat :=
  if candidateSlot ≤ finalizedSlot then none else some (candidateSlot - finalizedSlot - 1)

theorem justifiedIndexAfter_eq_none {c f : Nat} : justifiedIndexAfter c f = none ↔ c ≤ f := by
  unfold justifiedIndexAfter
  split <;> simp_all

theorem justifiedIndexAfter_eq_some {c f i : Nat} :
    justifiedIndexAfter c f = some i ↔ f < c ∧ i = c - f - 1 := by
  unfold justifiedIndexAfter
  split
  · simp only [reduceCtorEq, false_iff, not_and]
    omega
  · simp only [Option.some.injEq]
    omega

theorem justifiedIndexAfter_of_lt {c f : Nat} (h : f < c) :
    justifiedIndexAfter c f = some (c - f - 1) :=
  justifiedIndexAfter_eq_some.mpr ⟨h, rfl⟩

theorem justifiedIndexAfter_of_le {c f : Nat} (h : c ≤ f) : justifiedIndexAfter c f = none :=
  justifiedIndexAfter_eq_none.mpr h

theorem isJustifiableAfter_le {c f : Nat} (h : isJustifiableAfter c f = true) : f ≤ c := by
  unfold isJustifiableAfter at h
  split at h
  · cases h
  · omega

/-! ## The rule is the 3SF-mini rule -/

theorem sqrt_sq_beq_iff (delta : Nat) : (delta.sqrt ^ 2 == delta) = true ↔ ∃ k, delta = k ^ 2 := by
  rw [beq_iff_eq]
  constructor
  · intro h
    exact ⟨delta.sqrt, h.symm⟩
  · rintro ⟨k, rfl⟩
    rw [Nat.sqrt_eq']

theorem pronic_discriminant (k : Nat) : 4 * (k * (k + 1)) + 1 = (2 * k + 1) ^ 2 := by
  ring

theorem pronic_test_iff (delta : Nat) :
    ((4 * delta + 1).sqrt ^ 2 == 4 * delta + 1 && (4 * delta + 1).sqrt % 2 == 1) = true ↔
      ∃ k, delta = k * (k + 1) := by
  rw [Bool.and_eq_true, beq_iff_eq, beq_iff_eq]
  constructor
  · rintro ⟨hsq, hodd⟩
    obtain ⟨k, hk⟩ : ∃ k, (4 * delta + 1).sqrt = 2 * k + 1 :=
      ⟨(4 * delta + 1).sqrt / 2, by omega⟩
    refine ⟨k, ?_⟩
    rw [hk, ← pronic_discriminant] at hsq
    omega
  · rintro ⟨k, rfl⟩
    rw [pronic_discriminant, Nat.sqrt_eq']
    omega

/-- `is_justifiable_after c f` holds exactly when `c` is at or after `f` and the distance is at
most five, a perfect square or a pronic number. -/
theorem isJustifiableAfter_iff (c f : Nat) :
    isJustifiableAfter c f = true ↔
      f ≤ c ∧ (c - f ≤ 5 ∨ (∃ k, c - f = k ^ 2) ∨ ∃ k, c - f = k * (k + 1)) := by
  unfold isJustifiableAfter
  by_cases hlt : c < f
  · rw [if_pos hlt]
    simp only [Bool.false_eq_true, false_iff, not_and]
    omega
  · rw [if_neg hlt]
    dsimp only
    rw [Bool.or_eq_true, Bool.or_eq_true, decide_eq_true_iff, sqrt_sq_beq_iff, pronic_test_iff,
      or_assoc]
    exact ⟨fun h => ⟨by omega, h⟩, fun h => h.2⟩

theorem isJustifiableAfter_self (f : Nat) : isJustifiableAfter f f = true :=
  (isJustifiableAfter_iff f f).mpr ⟨Nat.le_refl f, .inl (by omega)⟩

/-- For `u64` slots every value `is_justifiable_after` forms stays in its width: the distance
and the square of its root in `u64`, the discriminant and the square of its root in `u128`. -/
theorem isJustifiableAfter_no_overflow {c f : Nat} (hc : c < 2 ^ 64) (hle : f ≤ c) :
    c - f < 2 ^ 64 ∧ (c - f).sqrt ^ 2 < 2 ^ 64 ∧ 4 * (c - f) + 1 < 2 ^ 128 ∧
      (4 * (c - f) + 1).sqrt ^ 2 < 2 ^ 128 := by
  have hdelta : c - f < 2 ^ 64 := by omega
  have hdisc : 4 * (c - f) + 1 < 2 ^ 128 := by omega
  exact ⟨hdelta, lt_of_le_of_lt (Nat.sqrt_le' _) hdelta, hdisc,
    lt_of_le_of_lt (Nat.sqrt_le' _) hdisc⟩

/-- The justifiability rule is the 3SF-mini rule on every pair of slots, and on `u64` slots its
arithmetic never overflows. -/
theorem justifiable_matches_three_sf_mini :
    (∀ c f : Nat, isJustifiableAfter c f = true ↔
      f ≤ c ∧ (c - f ≤ 5 ∨ (∃ k, c - f = k ^ 2) ∨ ∃ k, c - f = k * (k + 1))) ∧
    (∀ c f : Nat, c < 2 ^ 64 → f ≤ c →
      c - f < 2 ^ 64 ∧ (c - f).sqrt ^ 2 < 2 ^ 64 ∧ 4 * (c - f) + 1 < 2 ^ 128 ∧
        (4 * (c - f) + 1).sqrt ^ 2 < 2 ^ 128) :=
  ⟨isJustifiableAfter_iff, fun _ _ hc hle => isJustifiableAfter_no_overflow hc hle⟩

example : isJustifiableAfter 16 4 = true ∧ isJustifiableAfter 11 4 = false := by decide +kernel

end Ream.Consensus
