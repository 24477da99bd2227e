import Mathlib

/-!
# Swap-or-not rounds permute `[0, n)`

A round swaps `x` with `(pivot + (n - x)) % n` when a bit keyed by the larger is set; each round
is an involution of `[0, n)`, so rounds in turn map `List.range n` to a permutation of it.
-/

namespace SwapOrNot

/-- The partner of `x` in a round with pivot `pivot`. -/
def flip (n pivot x : Nat) : Nat := (pivot + (n - x)) % n

/-- One round: swap `x` with its partner when the bit of the larger of the two is set. -/
def round (n pivot : Nat) (bit : Nat → Bool) (x : Nat) : Nat :=
  if bit (max x (flip n pivot x)) then flip n pivot x else x

/-- The rounds `rs` in turn, round `r` with pivot `pivot r` and bits `bit r`. -/
def rounds {ρ : Type} (n : Nat) (pivot : ρ → Nat) (bit : ρ → Nat → Bool) (rs : List ρ)
    (x : Nat) : Nat :=
  rs.foldl (fun x r => round n (pivot r) (bit r) x) x

variable {n pivot x : Nat}

theorem flip_lt (hn : 0 < n) (pivot x : Nat) : flip n pivot x < n := Nat.mod_lt _ hn

theorem flip_flip (hp : pivot < n) (hx : x < n) : flip n pivot (flip n pivot x) = x := by
  unfold flip
  by_cases hpx : x ≤ pivot
  · have h1 : (pivot + (n - x)) % n = pivot - x := by
      rw [show pivot + (n - x) = pivot - x + n by omega, Nat.add_mod_right,
        Nat.mod_eq_of_lt (by omega)]
    rw [h1, show pivot + (n - (pivot - x)) = x + n by omega, Nat.add_mod_right,
      Nat.mod_eq_of_lt hx]
  · have h1 : (pivot + (n - x)) % n = pivot + (n - x) := Nat.mod_eq_of_lt (by omega)
    rw [h1, show pivot + (n - (pivot + (n - x))) = x by omega, Nat.mod_eq_of_lt hx]

theorem round_lt (hn : 0 < n) (bit : Nat → Bool) (hx : x < n) : round n pivot bit x < n := by
  unfold round
  split
  · exact flip_lt hn pivot x
  · exact hx

theorem round_round (hp : pivot < n) (bit : Nat → Bool) (hx : x < n) :
    round n pivot bit (round n pivot bit x) = x := by
  by_cases hb : bit (max x (flip n pivot x))
  · have hy : round n pivot bit x = flip n pivot x := if_pos hb
    rw [hy, round, flip_flip hp hx, max_comm, if_pos hb]
  · have hy : round n pivot bit x = x := if_neg hb
    rw [hy, hy]

theorem round_injOn (hp : pivot < n) (bit : Nat → Bool) {y : Nat} (hx : x < n) (hy : y < n)
    (h : round n pivot bit x = round n pivot bit y) : x = y := by
  rw [← round_round hp bit hx, ← round_round hp bit hy, h]

section Rounds

variable {ρ : Type} {pivot : ρ → Nat} {bit : ρ → Nat → Bool}

theorem rounds_lt (hn : 0 < n) : ∀ (rs : List ρ) {x : Nat}, x < n → rounds n pivot bit rs x < n
  | [], _, hx => hx
  | r :: rs, _, hx => rounds_lt hn rs (round_lt hn (bit r) hx)

theorem rounds_injOn (hp : ∀ r, pivot r < n) :
    ∀ (rs : List ρ) {x y : Nat}, x < n → y < n →
      rounds n pivot bit rs x = rounds n pivot bit rs y → x = y
  | [], _, _, _, _, h => h
  | r :: rs, _, _, hx, hy, h => by
    have hn : 0 < n := Nat.lt_of_le_of_lt (Nat.zero_le _) hx
    exact round_injOn (hp r) (bit r) hx hy
      (rounds_injOn hp rs (round_lt hn (bit r) hx) (round_lt hn (bit r) hy) h)

theorem map_rounds_perm (hp : ∀ r, pivot r < n) (rs : List ρ) :
    (List.range n).map (rounds n pivot bit rs) |>.Perm (List.range n) := by
  have hnodup : ((List.range n).map (rounds n pivot bit rs)).Nodup := by
    refine List.Nodup.map_on (fun x hx y hy h => ?_) List.nodup_range
    exact rounds_injOn hp rs (List.mem_range.mp hx) (List.mem_range.mp hy) h
  have hsub : (List.range n).map (rounds n pivot bit rs) ⊆ List.range n := by
    intro y hy
    obtain ⟨x, hx, rfl⟩ := List.mem_map.mp hy
    have hx' := List.mem_range.mp hx
    exact List.mem_range.mpr (rounds_lt (Nat.lt_of_le_of_lt (Nat.zero_le _) hx') rs hx')
  exact (hnodup.subperm hsub).perm_of_length_le (by simp)

end Rounds

end SwapOrNot
