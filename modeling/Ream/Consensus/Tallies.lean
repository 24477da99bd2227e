import Ream.Consensus.AttestationSpec

/-!
# The flat encoding of the pending tallies

`justifications_roots` with one segment of `n` bits per root in `justifications_validators`:
decoding reads a root's segment (`attestationLoopStart_ok`), and the write-back lists the roots
sorted with their tallies (`flattenJustifications_ok`).
-/

namespace Ream.Consensus

open Ssz

/-! ## Uniform blocks of a flat list -/

section Blocks

variable {α : Type}

/-- Reading width `n` from position `m * n` of a concatenation of blocks of length `n`
gives block `m`. -/
theorem window_flatMap {β : Type} (f : β → List α) (n : Nat) :
    ∀ (L : List β), (∀ x ∈ L, (f x).length = n) →
      ∀ (m : Nat) (hm : m < L.length), ((L.flatMap f).drop (m * n)).take n = f L[m]
  | [], _, m, hm => absurd hm (by simp)
  | x :: xs, hlen, m, hm => by
    have hx : (f x).length = n := hlen x (by simp)
    rw [List.flatMap_cons]
    cases m with
    | zero => simp [← hx]
    | succ m =>
      have hdrop : (f x ++ xs.flatMap f).drop ((m + 1) * n) = (xs.flatMap f).drop (m * n) := by
        rw [Nat.succ_mul, Nat.add_comm, ← List.drop_drop, List.drop_left' hx]
      rw [hdrop, window_flatMap f n xs (fun y hy => hlen y (by simp [hy])) m (by simpa using hm)]
      rfl

theorem length_flatMap_uniform {β : Type} (f : β → List α) (n : Nat) :
    ∀ (L : List β), (∀ x ∈ L, (f x).length = n) → (L.flatMap f).length = L.length * n
  | [], _ => by simp
  | x :: xs, hlen => by
    rw [List.flatMap_cons, List.length_append, hlen x (by simp),
      length_flatMap_uniform f n xs (fun y hy => hlen y (by simp [hy])), List.length_cons,
      Nat.succ_mul, Nat.add_comm]

end Blocks

/-! ## Decoding -/

/-- The vote segment of the `m`-th tracked root: bits `[m * n, m * n + n)` of
`justifications_validators`, as the decoding loop slices them. -/
def LeanState.voteSegment (s : LeanState) (m : Nat) : List Bool :=
  (s.justificationsValidators.bits.drop (m * s.validators.len)).take s.validators.len

theorem decodeTally_ok {n : Nat} {slice : List Bool} {b t : Tally} (hlen : slice.length = n)
    (hb : BitList.withCapacity n = .ok b) (ht : b.setAll 0 slice = .ok t) :
    t.bits = slice := by
  subst hlen
  have hcap : slice.length ≤ JUSTIFICATION_VOTES_LIMIT := by
    simpa [BitList.withCapacity_ok hb] using b.bound
  rw [BitList.setAll_withCapacity hcap hb, Except.ok_inj] at ht
  rw [← ht]

/-- Every tally the decoding loop leaves is either one it started with, for a root it did
not see, or the slice of some position holding its root. -/
theorem decodeLoop_ok {n numRoots : Nat} {flat : List Bool} :
    ∀ {J J' : AssocMap B256 Tally} {i : Nat} {roots : List B256},
      decodeLoop n numRoots flat J i roots = .ok J' → ∀ root t, J'.get? root = some t →
        (∃ m, roots[m]? = some root ∧ t.bits = (flat.drop ((i + m) * n)).take n) ∨
        (root ∉ roots ∧ J.get? root = some t)
  | J, J', i, [], h, root, t, ht => by
    simp only [decodeLoop, Except.ok_inj] at h
    subst h
    exact .inr ⟨by simp, ht⟩
  | J, J', i, r :: rest, h, root, t, ht => by
    unfold decodeLoop at h
    dsimp only at h
    split at h
    · rename_i hend
      simp only [Except.bind_eq_ok, Except.mapError_eq_ok] at h
      obtain ⟨b, hb, b', hb', h⟩ := h
      have hslice : ((flat.drop (i * n)).take n).length = n := by
        simp only [List.length_take, List.length_drop]
        omega
      have hbits := decodeTally_ok hslice hb hb'
      rcases decodeLoop_ok h root t ht with ⟨m, hm, hbits'⟩ | ⟨hnot, hget⟩
      · refine .inl ⟨m + 1, by simpa using hm, ?_⟩
        rw [hbits', show i + 1 + m = i + (m + 1) by omega]
      · rw [AssocMap.get?_insert] at hget
        by_cases hr : root = r
        · subst hr
          rw [if_pos rfl, Option.some_inj] at hget
          subst hget
          exact .inl ⟨0, by simp, by simpa using hbits⟩
        · rw [if_neg hr] at hget
          exact .inr ⟨by simp [hr, hnot], hget⟩
    · cases h

theorem decodeLoop_isSome {n numRoots : Nat} {flat : List Bool} :
    ∀ {J J' : AssocMap B256 Tally} {i : Nat} {roots : List B256},
      decodeLoop n numRoots flat J i roots = .ok J' →
        ∀ root, root ∈ roots ∨ (J.get? root).isSome → (J'.get? root).isSome
  | J, J', i, [], h, root, hroot => by
    simp only [decodeLoop, Except.ok_inj] at h
    subst h
    simpa using hroot
  | J, J', i, r :: rest, h, root, hroot => by
    unfold decodeLoop at h
    dsimp only at h
    split at h
    · simp only [Except.bind_eq_ok, Except.mapError_eq_ok] at h
      obtain ⟨b, _, b', _, h⟩ := h
      apply decodeLoop_isSome h root
      by_cases hr : root = r
      · exact .inr (by simp [hr])
      · rw [AssocMap.get?_insert, if_neg hr]
        simpa [hr] using hroot
    · cases h

/-- What the guards of `process_attestations` establish and what the loop starts from. -/
structure LoopStart (s : LeanState) (σ : AttestationLoop) : Prop where
  state : σ.state = s
  validators_pos : 0 < s.validators.len
  votes_length : s.justificationsValidators.len = s.justificationsRoots.len * s.validators.len
  roots_nonzero : B256.ZERO ∉ s.justificationsRoots.data
  tallies : ∀ root t, σ.justifications.get? root = some t →
    ∃ m, s.justificationsRoots.data[m]? = some root ∧ t.bits = s.voteSegment m
  complete : ∀ root ∈ s.justificationsRoots.data, (σ.justifications.get? root).isSome

theorem attestationLoopStart_ok {s : LeanState} {σ : AttestationLoop}
    (h : attestationLoopStart s = .ok σ) : LoopStart s σ := by
  unfold attestationLoopStart at h
  by_cases hpos : 0 < s.validators.len
  · rw [if_neg (by omega)] at h
    by_cases hlen : s.justificationsValidators.len = s.justificationsRoots.len * s.validators.len
    · rw [if_neg (by simpa using hlen)] at h
      by_cases hzero : B256.ZERO ∈ s.justificationsRoots.data
      · rw [if_pos hzero] at h
        cases h
      · rw [if_neg hzero] at h
        dsimp only at h
        by_cases hempty : s.justificationsRoots.data.isEmpty
        · rw [if_pos hempty] at h
          simp only [pure, Except.pure, bind, Except.bind, Except.ok.injEq] at h
          subst h
          have hnil : s.justificationsRoots.data = [] := List.isEmpty_iff.mp hempty
          exact ⟨rfl, hpos, hlen, hzero, by simp, by simp [hnil]⟩
        · rw [if_neg hempty, Except.bind_eq_ok] at h
          obtain ⟨J, hJ, h⟩ := h
          rw [Except.pure_eq_ok] at h
          subst h
          refine ⟨rfl, hpos, hlen, hzero, fun root t ht => ?_, fun root hroot =>
            decodeLoop_isSome hJ root (.inl hroot)⟩
          rcases decodeLoop_ok hJ root t ht with ⟨m, hm, hbits⟩ | ⟨_, hget⟩
          · exact ⟨m, hm, by rw [hbits, Nat.zero_add]; rfl⟩
          · simp at hget
    · rw [if_pos (by simpa using hlen)] at h
      cases h
  · rw [if_pos (by omega)] at h
    cases h

/-- A tally the loop starts from has `n` bits: it is the segment of a tracked root, which
lies inside the flat list. -/
theorem LoopStart.tally_len {s : LeanState} {σ : AttestationLoop} (hstart : LoopStart s σ)
    {root : B256} {t : Tally} (ht : σ.justifications.get? root = some t) :
    t.len = s.validators.len ∧
      ∃ m, m < s.justificationsRoots.len ∧ s.justificationsRoots.data[m]? = some root ∧
        t.bits = s.voteSegment m := by
  obtain ⟨m, hm, hbits⟩ := hstart.tallies root t ht
  have hmlen : m < s.justificationsRoots.len := (List.getElem?_eq_some_iff.mp hm).1
  have hfit : m * s.validators.len + s.validators.len ≤
      s.justificationsValidators.bits.length := by
    have hvl := hstart.votes_length
    unfold BitList.len at hvl
    rw [hvl, ← Nat.succ_mul]
    exact Nat.mul_le_mul_right _ hmlen
  refine ⟨?_, m, hmlen, hm, hbits⟩
  rw [BitList.len, hbits, LeanState.voteSegment, List.length_take, List.length_drop]
  omega

/-! ## Writing back -/

/-- The bits a root contributes to the flat list: its tally, or nothing. -/
def tallyBits (justifications : AssocMap B256 Tally) (root : B256) : List Bool :=
  ((justifications.get? root).map BitList.bits).getD []

/-- The flattening loop appends the roots and, in the same order, their tallies; it fails
unless every root has a tally of length `n`. -/
theorem flattenLoop_ok {n : Nat} {J : AssocMap B256 Tally} :
    ∀ {roots : List B256} {rl rl' : VariableList B256 MAX_HISTORICAL_BLOCK_HASHES}
      {vl vl' : List Bool}, flattenLoop n J roots rl vl = .ok (rl', vl') →
        rl'.data = rl.data ++ roots ∧ vl' = vl ++ roots.flatMap (tallyBits J) ∧
        ∀ r ∈ roots, ∃ t, J.get? r = some t ∧ t.len = n
  | [], rl, rl', vl, vl', h => by
    simp only [flattenLoop, Except.ok_inj, Prod.mk.injEq] at h
    obtain ⟨rfl, rfl⟩ := h
    simp
  | r :: rest, rl, rl', vl, vl', h => by
    unfold flattenLoop at h
    split at h
    · cases h
    · rename_i votes hvotes
      split at h
      · cases h
      · rename_i hlen
        split at h
        · cases h
        · rename_i rl1 hpush
          obtain ⟨hrl, hvl, htallies⟩ := flattenLoop_ok h
          have hdata : rl1.data = rl.data ++ [r] := VariableList.push_ok hpush
          refine ⟨by rw [hrl, hdata]; simp, ?_, ?_⟩
          · rw [hvl, List.flatMap_cons]
            simp [tallyBits, hvotes]
          · intro x hx
            rcases List.mem_cons.mp hx with rfl | hx
            · exact ⟨votes, hvotes, by simpa using hlen⟩
            · exact htallies x hx

/-- The roots written back: the map's keys in increasing order. -/
def sortedRoots (justifications : AssocMap B256 Tally) : List B256 :=
  justifications.keys.insertionSort (· ≤ ·)

theorem sortedRoots_strictly_increasing (J : AssocMap B256 Tally) :
    (sortedRoots J).Pairwise (· < ·) := by
  have hle : (sortedRoots J).Pairwise (· ≤ ·) := List.pairwise_insertionSort _ J.keys
  have hnodup : (sortedRoots J).Nodup :=
    (List.perm_insertionSort _ J.keys).nodup_iff.mpr J.keys_nodup
  exact (hle.and hnodup).imp fun ⟨hab, hne⟩ => lt_of_le_of_ne hab hne

theorem mem_sortedRoots {J : AssocMap B256 Tally} {root : B256} :
    root ∈ sortedRoots J ↔ (J.get? root).isSome := by
  rw [sortedRoots, (List.perm_insertionSort _ J.keys).mem_iff, AssocMap.mem_keys]

theorem length_sortedRoots (J : AssocMap B256 Tally) : (sortedRoots J).length = J.size := by
  rw [sortedRoots, List.length_insertionSort, AssocMap.size_eq_length_keys]

/-- What the write-back leaves: the state with the sorted roots and their concatenated
tallies, every tally of length `n`. -/
theorem flattenJustifications_ok {s s' : LeanState} {J : AssocMap B256 Tally}
    (h : flattenJustifications s J = .ok s') :
    s' = { s with
      justificationsRoots := s'.justificationsRoots
      justificationsValidators := s'.justificationsValidators } ∧
    s'.justificationsRoots.data = sortedRoots J ∧
    s'.justificationsValidators.bits = (sortedRoots J).flatMap (tallyBits J) ∧
    ∀ r ∈ sortedRoots J, ∃ t, J.get? r = some t ∧ t.len = s.validators.len := by
  unfold flattenJustifications at h
  rw [Except.bind_eq_ok] at h
  obtain ⟨⟨rl, vl⟩, hloop, h⟩ := h
  change flattenLoop s.validators.len J (sortedRoots J) VariableList.empty [] = _ at hloop
  obtain ⟨hrl, hvl, htallies⟩ := flattenLoop_ok hloop
  simp only [VariableList.empty_data, List.nil_append] at hrl hvl
  simp only [Except.bind_eq_ok, Except.mapError_eq_ok, Except.pure_eq_ok] at h
  obtain ⟨b, hb, b', hb', h⟩ := h
  have hvlen : vl.length = J.size * s.validators.len := by
    rw [hvl, length_flatMap_uniform _ s.validators.len _ (fun r hr => by
      obtain ⟨t, ht, htlen⟩ := htallies r hr
      simpa [tallyBits, ht, BitList.len] using htlen), length_sortedRoots]
  have hbits := decodeTally_ok hvlen hb hb'
  subst h
  exact ⟨rfl, hrl, by rw [hbits, hvl], htallies⟩

end Ream.Consensus
