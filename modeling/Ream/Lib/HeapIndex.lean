import Mathlib

/-!
# Heap positions: parents, siblings and levels

A perfect binary tree in heap order: root `1`, parent `n / 2`, sibling `n ^^^ 1`. A set of
positions closed under siblings off the paths and under parents of sibling pairs holds the root
(`root_mem_of_closed`).
-/

namespace HeapIndex

/-- The positions of level `k`. -/
def AtLevel (k n : Nat) : Prop := 2 ^ k ≤ n ∧ n < 2 ^ (k + 1)

theorem xor_one_eq (n : Nat) : n ^^^ 1 = if n % 2 = 0 then n + 1 else n - 1 := by
  split
  · exact Nat.xor_one_of_even (Nat.even_iff.mpr ‹_›)
  · exact Nat.xor_one_of_odd (Nat.odd_iff.mpr (by omega))

theorem or_one_eq (n : Nat) : n ||| 1 = 2 * (n / 2) + 1 := by
  apply Nat.eq_of_testBit_eq
  intro i
  cases i with
  | zero => simp
  | succ i =>
    rw [Nat.testBit_or, Nat.testBit_succ, Nat.testBit_succ, Nat.testBit_succ,
      show (2 * (n / 2) + 1) / 2 = n / 2 by omega]
    simp

theorem or_one_xor_one_eq (n : Nat) : (n ||| 1) ^^^ 1 = 2 * (n / 2) := by
  rw [or_one_eq, xor_one_eq]
  split <;> omega

@[simp] theorem xor_one_div_two (n : Nat) : (n ^^^ 1) / 2 = n / 2 := by
  rw [xor_one_eq]
  split <;> omega

@[simp] theorem xor_one_xor_one (n : Nat) : n ^^^ 1 ^^^ 1 = n := by
  rw [Nat.xor_assoc, Nat.xor_self, Nat.xor_zero]

theorem xor_one_ne (n : Nat) : n ^^^ 1 ≠ n := by
  rw [xor_one_eq]
  split <;> omega

theorem or_one_mem (n : Nat) : n ||| 1 = n ∨ n ||| 1 = n ^^^ 1 := by
  rw [or_one_eq, xor_one_eq]
  split <;> omega

theorem or_one_xor_one_mem (n : Nat) : (n ||| 1) ^^^ 1 = n ∨ (n ||| 1) ^^^ 1 = n ^^^ 1 := by
  rw [or_one_xor_one_eq, xor_one_eq]
  split <;> omega

namespace AtLevel

variable {k n : Nat}

theorem one_le (h : AtLevel k n) : 1 ≤ n := le_trans Nat.one_le_two_pow h.1

theorem two_le (h : AtLevel k n) (hk : 1 ≤ k) : 2 ≤ n :=
  calc 2 = 2 ^ 1 := rfl
    _ ≤ 2 ^ k := Nat.pow_le_pow_right (by decide) hk
    _ ≤ n := h.1

theorem lt_two_pow_of_le (h : AtLevel k n) {j : Nat} (hkj : k ≤ j) : n < 2 ^ (j + 1) :=
  lt_of_lt_of_le h.2 (Nat.pow_le_pow_right (by decide) (by omega))

theorem div_pow (h : AtLevel k n) {t : Nat} (ht : t ≤ k) : AtLevel (k - t) (n / 2 ^ t) := by
  have hlow : 2 ^ (k - t) * 2 ^ t = 2 ^ k := by rw [← Nat.pow_add, Nat.sub_add_cancel ht]
  have hhigh : 2 ^ (k - t + 1) * 2 ^ t = 2 ^ (k + 1) := by
    rw [← Nat.pow_add]
    congr 1
    omega
  constructor
  · rw [Nat.le_div_iff_mul_le (Nat.two_pow_pos t), hlow]
    exact h.1
  · rw [Nat.div_lt_iff_lt_mul (Nat.two_pow_pos t), hhigh]
    exact h.2

theorem div_pow_self (h : AtLevel k n) : n / 2 ^ k = 1 := by
  have hroot := h.div_pow (le_refl k)
  rw [Nat.sub_self] at hroot
  unfold AtLevel at hroot
  simp only [Nat.pow_zero, Nat.zero_add, Nat.pow_one] at hroot
  omega

theorem xor_one (h : AtLevel k n) (hk : 1 ≤ k) : AtLevel k (n ^^^ 1) := by
  have heven : 2 ^ k = 2 * 2 ^ (k - 1) := by
    rw [← Nat.pow_succ']
    congr 1
    omega
  have heven' : 2 ^ (k + 1) = 2 * 2 ^ k := Nat.pow_succ'
  obtain ⟨hlo, hhi⟩ := h
  rw [xor_one_eq]
  constructor <;> split <;> omega

theorem unique (h : AtLevel k n) {k' : Nat} (h' : AtLevel k' n) : k = k' := by
  have h1 : k < k' + 1 := (Nat.pow_lt_pow_iff_right (by decide)).mp (lt_of_le_of_lt h.1 h'.2)
  have h2 : k' < k + 1 := (Nat.pow_lt_pow_iff_right (by decide)).mp (lt_of_le_of_lt h'.1 h.2)
  omega

theorem lt_of_two_le_div_pow (h : AtLevel k n) {t : Nat} (h2 : 2 ≤ n / 2 ^ t) : t < k := by
  by_contra hlt
  have hle : n / 2 ^ t ≤ n / 2 ^ k :=
    Nat.div_le_div_left (Nat.pow_le_pow_right (by decide) (Nat.le_of_not_lt hlt))
      (Nat.two_pow_pos k)
  rw [h.div_pow_self] at hle
  omega

end AtLevel

section Closure

variable {h : Nat} {G K : Nat → Prop}

/-- A set `K` that holds the leaves `G` of level `h`, the sibling of every node on their paths
that is on no path at its height, and the parent of every pair of siblings it holds, holds every
node on their paths. -/
theorem path_mem_of_closed (hG : ∀ g, G g → AtLevel h g) (hGK : ∀ g, G g → K g)
    (hhelper : ∀ g t, G g → t < h → (∀ g', G g' → (g / 2 ^ t) ^^^ 1 ≠ g' / 2 ^ t) →
      K ((g / 2 ^ t) ^^^ 1))
    (hclosed : ∀ a, K a → K (a ^^^ 1) → K (a / 2)) :
    ∀ t, t ≤ h → ∀ g, G g → K (g / 2 ^ t)
  | 0, _, g, hg => by
    rw [Nat.pow_zero, Nat.div_one]
    exact hGK g hg
  | t + 1, ht, g, hg => by
    have hnode := path_mem_of_closed hG hGK hhelper hclosed t (by omega) g hg
    have hsibling : K ((g / 2 ^ t) ^^^ 1) := by
      by_cases hpath : ∃ g', G g' ∧ (g / 2 ^ t) ^^^ 1 = g' / 2 ^ t
      · obtain ⟨g', hg', heq⟩ := hpath
        rw [heq]
        exact path_mem_of_closed hG hGK hhelper hclosed t (by omega) g' hg'
      · exact hhelper g t hg (by omega) fun g' hg' heq => hpath ⟨g', hg', heq⟩
    have hparent := hclosed _ hnode hsibling
    rwa [Nat.div_div_eq_div_mul, ← Nat.pow_succ] at hparent

theorem root_mem_of_closed (hG : ∀ g, G g → AtLevel h g) (hGK : ∀ g, G g → K g)
    (hhelper : ∀ g t, G g → t < h → (∀ g', G g' → (g / 2 ^ t) ^^^ 1 ≠ g' / 2 ^ t) →
      K ((g / 2 ^ t) ^^^ 1))
    (hclosed : ∀ a, K a → K (a ^^^ 1) → K (a / 2)) (hne : ∃ g, G g) : K 1 := by
  obtain ⟨g, hg⟩ := hne
  have hroot := path_mem_of_closed hG hGK hhelper hclosed h le_rfl g hg
  rwa [(hG g hg).div_pow_self] at hroot

end Closure

end HeapIndex
