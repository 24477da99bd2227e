import Mathlib

/-!
# Cutting `[0, n)` into `count` consecutive slices

Slice `i` runs from `n * i / count` to `n * (i + 1) / count`. For `count > 0` the slices
`0, …, count - 1` laid end to end are exactly `[0, n)`, also when `n < count` and some
slices are empty, and each slice has `n / count` or `n / count + 1` elements.
-/

namespace Slices

/-- Slice `i` of `count` of `[0, n)`. -/
def slice (n count i : Nat) : List Nat :=
  List.range' (n * i / count) (n * (i + 1) / count - n * i / count)

variable {n count : Nat}

theorem start_le_succ (n count i : Nat) : n * i / count ≤ n * (i + 1) / count :=
  Nat.div_le_div_right (Nat.mul_le_mul_left n (Nat.le_succ i))

theorem flatMap_range_slice (n count : Nat) :
    ∀ k, (List.range k).flatMap (slice n count) = List.range (n * k / count)
  | 0 => by simp
  | k + 1 => by
    have happend := @List.range'_append_1 0 (n * k / count)
      (n * (k + 1) / count - n * k / count)
    rw [Nat.zero_add, Nat.add_sub_cancel' (start_le_succ n count k)] at happend
    rw [List.range_succ, List.flatMap_append, flatMap_range_slice n count k, List.flatMap_singleton,
      slice, List.range_eq_range', List.range_eq_range', happend]

theorem flatMap_slice (hc : 0 < count) : (List.range count).flatMap (slice n count) = List.range n := by
  rw [flatMap_range_slice, Nat.mul_div_cancel _ hc]

theorem length_slice (hc : 0 < count) (i : Nat) :
    (slice n count i).length = n / count ∨ (slice n count i).length = n / count + 1 := by
  rw [slice, List.length_range', Nat.mul_succ, Nat.add_div hc]
  split
  · exact .inr (by rw [Nat.add_assoc, Nat.add_sub_cancel_left])
  · exact .inl (by rw [Nat.add_zero, Nat.add_sub_cancel_left])

theorem mem_slice_lt {i j : Nat} (hi : i < count) (hj : j ∈ slice n count i) : j < n := by
  rw [slice, List.mem_range'_1] at hj
  have hle : n * (i + 1) / count ≤ n := by
    calc n * (i + 1) / count ≤ n * count / count :=
          Nat.div_le_div_right (Nat.mul_le_mul_left n hi)
      _ = n := Nat.mul_div_cancel n (Nat.lt_of_le_of_lt (Nat.zero_le i) hi)
  omega

end Slices
