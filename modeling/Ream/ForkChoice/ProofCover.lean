import Ream.ForkChoice.Store
import Ream.Lib.GreedyCover

/-!
# The greedy proof cover of `extend_proofs_greedily`

`LeanState::extend_proofs_greedily` takes the proof with the most uncovered participants, the last
on a tie, until none adds one: a greedy cover in the sense of `GreedyCover`, for every iteration
order of the proof set.
-/

namespace Ream.ForkChoice

open Ssz GreedyCover

/-- A `HashSet`, as its elements in iteration order: none twice. -/
structure HashSet (α : Type) where
  elems : List α
  nodup : elems.Nodup

/-- `Vec::swap_remove`: the element at `index`, and the vector with its last element moved
into that place. -/
def vecSwapRemove {α : Type} (v : List α) (index : Nat) : Except String (α × List α) :=
  if h : index < v.length then
    .ok (v.get ⟨index, h⟩,
      (v.set index (v.getLast (List.ne_nil_of_length_pos (Nat.lt_of_le_of_lt (Nat.zero_le _) h)))).dropLast)
  else .error s!"swap_remove index (is {index}) should be < len (is {v.length})"

theorem dropLast_set {α : Type} (v : List α) (index : Nat) (a : α) :
    (v.set index a).dropLast = v.dropLast.set index a := by
  apply List.ext_getElem (by simp)
  intro i h₁ h₂
  simp only [List.getElem_dropLast, List.getElem_set]

theorem vecSwapRemove_perm {α : Type} {v rest : List α} {index : Nat} {x : α}
    (h : vecSwapRemove v index = .ok (x, rest)) : (x :: rest).Perm v := by
  unfold vecSwapRemove at h
  split at h
  · rename_i hi
    cases h
    have hne : v ≠ [] := List.ne_nil_of_length_pos (Nat.lt_of_le_of_lt (Nat.zero_le _) hi)
    by_cases hlast : index = v.length - 1
    · have hset : v.set index (v.getLast hne) = v := by
        rw [List.getLast_eq_getElem]
        simp only [← hlast, List.set_getElem_self]
      have hx : v.get ⟨index, hi⟩ = v.getLast hne := by
        simp only [List.get_eq_getElem, List.getLast_eq_getElem, hlast]
      rw [hset, hx]
      calc List.Perm (v.getLast hne :: v.dropLast) (v.dropLast ++ [v.getLast hne]) :=
            (List.perm_append_singleton _ _).symm
        _ = v := List.dropLast_append_getLast hne
    · have hlt : index < v.dropLast.length := by
        rw [List.length_dropLast]
        omega
      have hx : v.get ⟨index, hi⟩ = v.dropLast[index] := by
        simp only [List.get_eq_getElem, List.getElem_dropLast]
      rw [dropLast_set, hx]
      have hmid : (v.dropLast.set index (v.getLast hne)).Perm
          (v.getLast hne :: v.dropLast.eraseIdx index) := by
        rw [List.set_eq_take_append_cons_drop, if_pos hlt, List.eraseIdx_eq_take_drop_succ]
        exact List.perm_middle
      calc List.Perm (v.dropLast[index] :: v.dropLast.set index (v.getLast hne))
            (v.dropLast[index] :: v.getLast hne :: v.dropLast.eraseIdx index) := hmid.cons _
        List.Perm _ (v.getLast hne :: v.dropLast[index] :: v.dropLast.eraseIdx index) :=
          List.Perm.swap _ _ _
        List.Perm _ (v.getLast hne :: v.dropLast) := (List.getElem_cons_eraseIdx_perm hlt).cons _
        List.Perm _ (v.dropLast ++ [v.getLast hne]) := (List.perm_append_singleton _ _).symm
        _ = v := List.dropLast_append_getLast hne
  · cases h

theorem vecSwapRemove_get {α : Type} {v rest : List α} {index : Nat} {x : α}
    (h : vecSwapRemove v index = .ok (x, rest)) : v[index]? = some x := by
  unfold vecSwapRemove at h
  split at h
  · rename_i hi
    cases h
    exact List.getElem?_eq_getElem hi
  · cases h

theorem length_lt_of_vecSwapRemove {α : Type} {v rest : List α} {index : Nat} {x : α}
    (h : vecSwapRemove v index = .ok (x, rest)) : rest.length < v.length := by
  have hlen := (vecSwapRemove_perm h).length_eq
  rw [List.length_cons] at hlen
  omega

/-- One step of `max_by_key`: the later element when its key is at least the best so far. -/
def maxByKeyStep {α : Type} (f : α → Nat) (best y : α) : α := if f best ≤ f y then y else best

theorem maxByKeyStep_of_le {α : Type} {f : α → Nat} {best y : α} (h : f best ≤ f y) :
    maxByKeyStep f best y = y := if_pos h

theorem maxByKeyStep_of_lt {α : Type} {f : α → Nat} {best y : α} (h : f y < f best) :
    maxByKeyStep f best y = best := if_neg (Nat.not_le.mpr h)

/-- `Iterator::max_by_key`: the last element whose key is largest. -/
def maxByKey {α : Type} (f : α → Nat) : List α → Option α
  | [] => none
  | x :: xs => some (xs.foldl (maxByKeyStep f) x)

/-- The fold of `max_by_key` ends on its start or on an element of the list, with a key at
least the start's and every element's. -/
theorem foldl_maxByKey_spec {α : Type} (f : α → Nat) :
    ∀ (ys : List α) (best : α),
      (ys.foldl (maxByKeyStep f) best = best ∨ ys.foldl (maxByKeyStep f) best ∈ ys) ∧
        f best ≤ f (ys.foldl (maxByKeyStep f) best) ∧
        ∀ y ∈ ys, f y ≤ f (ys.foldl (maxByKeyStep f) best)
  | [], best => ⟨.inl rfl, le_rfl, by simp⟩
  | y :: ys, best => by
    rw [List.foldl_cons]
    obtain ⟨hmem, hstart, hall⟩ := foldl_maxByKey_spec f ys (maxByKeyStep f best y)
    have hstep : f best ≤ f (maxByKeyStep f best y) ∧ f y ≤ f (maxByKeyStep f best y) := by
      by_cases hle : f best ≤ f y
      · rw [maxByKeyStep_of_le hle]
        exact ⟨hle, le_rfl⟩
      · rw [maxByKeyStep_of_lt (Nat.lt_of_not_le hle)]
        exact ⟨le_rfl, by omega⟩
    refine ⟨?_, hstep.1.trans hstart, ?_⟩
    · rcases hmem with hr | hr
      · by_cases hle : f best ≤ f y
        · rw [maxByKeyStep_of_le hle] at hr ⊢
          rw [hr]
          exact .inr List.mem_cons_self
        · rw [maxByKeyStep_of_lt (Nat.lt_of_not_le hle)] at hr ⊢
          exact .inl hr
      · exact .inr (List.mem_cons_of_mem y hr)
    · intro z hz
      rcases List.mem_cons.mp hz with rfl | hz
      · exact hstep.2.trans hstart
      · exact hall z hz

theorem maxByKey_spec {α : Type} {f : α → Nat} {l : List α} {m : α}
    (h : maxByKey f l = some m) : m ∈ l ∧ ∀ y ∈ l, f y ≤ f m := by
  cases l with
  | nil => cases h
  | cons x xs =>
    rw [maxByKey, Option.some.injEq] at h
    obtain ⟨hmem, hstart, hall⟩ := foldl_maxByKey_spec f xs x
    rw [h] at hmem hstart hall
    refine ⟨?_, fun y hy => ?_⟩
    · rcases hmem with rfl | hm
      · exact List.mem_cons_self
      · exact List.mem_cons_of_mem x hm
    · rcases List.mem_cons.mp hy with rfl | hy
      · exact hstart
      · exact hall y hy

theorem maxByKey_isSome {α : Type} {f : α → Nat} {l : List α} (h : l ≠ []) :
    (maxByKey f l).isSome := by
  cases l with
  | nil => exact absurd rfl h
  | cons x xs => rfl

/-! ## Participants -/

/-- The validators a proof's participation bits name. -/
def PayloadProof.participantSet (proof : PayloadProof) : Finset Nat :=
  proof.toValidatorIndices.toFinset

theorem PayloadProof.mem_participantSet {proof : PayloadProof} {v : Nat} :
    v ∈ proof.participantSet ↔ proof.participants.getD v = true := by
  rw [participantSet, List.mem_toFinset, toValidatorIndices, BitList.indices, List.mem_filter,
    List.mem_range]
  constructor
  · exact fun h => h.2
  · intro h
    refine ⟨Nat.lt_of_not_le fun hle => ?_, h⟩
    rw [BitList.getD_of_len_le hle] at h
    cases h

theorem mem_zipIdx_bits {proof : PayloadProof} {signed : Bool} {v : Nat} :
    (signed, v) ∈ proof.participants.bits.zipIdx ↔ proof.participants.bits[v]? = some signed :=
  List.mem_zipIdx_iff_getElem?

theorem getD_eq_true_iff {proof : PayloadProof} {v : Nat} :
    proof.participants.getD v = true ↔ proof.participants.bits[v]? = some true := by
  rw [BitList.getD, List.getD_eq_getElem?_getD]
  cases proof.participants.bits[v]? with
  | none => simp
  | some b => simp

/-- The participants of a proof not yet covered. -/
def newCount (coveredValidators : Finset Nat) (proof : PayloadProof) : Nat :=
  (proof.participants.bits.zipIdx.filter fun (signed, validatorId) =>
    signed && !decide (validatorId ∈ coveredValidators)).length

theorem newCount_eq_zero_iff {coveredValidators : Finset Nat} {proof : PayloadProof} :
    newCount coveredValidators proof = 0 ↔ proof.participantSet ⊆ coveredValidators := by
  rw [newCount, List.length_eq_zero_iff, List.filter_eq_nil_iff]
  constructor
  · intro h v hv
    rw [PayloadProof.mem_participantSet, getD_eq_true_iff, ← mem_zipIdx_bits] at hv
    simpa using h _ hv
  · rintro hsub ⟨signed, v⟩ hmem
    cases signed with
    | false => simp
    | true =>
      rw [mem_zipIdx_bits, ← getD_eq_true_iff, ← PayloadProof.mem_participantSet] at hmem
      simpa using hsub hmem

/-- The covering loop of one selected proof: each set bit's validator is inserted. -/
def coverParticipants (coveredValidators : Finset Nat) (best : PayloadProof) : Finset Nat :=
  best.participants.bits.zipIdx.foldl (fun covered (signed, validatorId) =>
    if signed then insert validatorId covered else covered) coveredValidators

theorem mem_foldl_insert {v : Nat} : ∀ (l : List (Bool × Nat)) (c : Finset Nat),
    v ∈ l.foldl (fun covered (signed, validatorId) =>
        if signed then insert validatorId covered else covered) c ↔ v ∈ c ∨ (true, v) ∈ l
  | [], c => by simp
  | (signed, w) :: l, c => by
    rw [List.foldl_cons, mem_foldl_insert l]
    cases signed with
    | false => simp
    | true =>
      simp only [if_true, Finset.mem_insert, List.mem_cons, Prod.mk.injEq, true_and]
      tauto

theorem coverParticipants_eq (coveredValidators : Finset Nat) (best : PayloadProof) :
    coverParticipants coveredValidators best = coveredValidators ∪ best.participantSet := by
  ext v
  rw [coverParticipants, mem_foldl_insert, Finset.mem_union, mem_zipIdx_bits,
    ← getD_eq_true_iff, ← PayloadProof.mem_participantSet]

/-! ## The loop -/

-- the removal's equation is used only by the termination proof
set_option linter.unusedVariables false in
/-- The `while !remaining.is_empty()` loop of `extend_proofs_greedily`. -/
def extendLoop (remaining selectedProofs : List PayloadProof) (coveredValidators : Finset Nat) :
    Except String (List PayloadProof × Finset Nat) :=
  if remaining.isEmpty then .ok (selectedProofs, coveredValidators)
  else
    let bestSelection := maxByKey (·.2) (remaining.zipIdx.map fun (proof, index) =>
      (index, newCount coveredValidators proof))
    match bestSelection with
    | none => .ok (selectedProofs, coveredValidators)
    | some (bestIndex, count) =>
      if count = 0 then .ok (selectedProofs, coveredValidators)
      else
        match h : vecSwapRemove remaining bestIndex with
        | .error e => .error e
        | .ok (best, rest) =>
          extendLoop rest (selectedProofs ++ [best]) (coverParticipants coveredValidators best)
termination_by remaining.length
decreasing_by exact length_lt_of_vecSwapRemove h

def extendProofsGreedily (proofs : Option (HashSet PayloadProof))
    (selectedProofs : List PayloadProof) (coveredValidators : Finset Nat) :
    Except String (List PayloadProof × Finset Nat) :=
  match proofs with
  | none => .ok (selectedProofs, coveredValidators)
  | some proofs => extendLoop proofs.elems selectedProofs coveredValidators

/-! ## The loop is a greedy cover -/

/-- The pair `max_by_key` selects names a proof of the vector by its index, with its count,
and no proof of the vector adds more participants. -/
theorem bestSelection_spec {remaining : List PayloadProof} {coveredValidators : Finset Nat}
    {bestIndex count : Nat}
    (h : maxByKey (·.2) (remaining.zipIdx.map fun (proof, index) =>
      (index, newCount coveredValidators proof)) = some (bestIndex, count)) :
    ∃ proof, remaining[bestIndex]? = some proof ∧ newCount coveredValidators proof = count ∧
      ∀ p ∈ remaining, newCount coveredValidators p ≤ count := by
  obtain ⟨hmem, hmax⟩ := maxByKey_spec h
  obtain ⟨⟨proof, index⟩, hzip, hpair⟩ := List.mem_map.mp hmem
  rw [Prod.mk.injEq] at hpair
  refine ⟨proof, ?_, hpair.2, fun p hp => ?_⟩
  · rw [← hpair.1]
    exact List.mem_zipIdx_iff_getElem?.mp hzip
  · obtain ⟨i, hi⟩ := List.mem_iff_getElem?.mp hp
    exact hmax (i, newCount coveredValidators p)
      (List.mem_map.mpr ⟨(p, i), List.mem_zipIdx_iff_getElem?.mpr hi, rfl⟩)

/-- From a vector without repetitions the loop returns: the proofs it appends are a greedy cover
of the vector, and the covered set is what they add to the initial one. -/
theorem extendLoop_greedy (remaining selectedProofs : List PayloadProof)
    (coveredValidators : Finset Nat) (hnodup : remaining.Nodup) :
    ∃ appended, extendLoop remaining selectedProofs coveredValidators =
        .ok (selectedProofs ++ appended,
          coverOf PayloadProof.participantSet coveredValidators appended) ∧
      IsGreedyCover PayloadProof.participantSet remaining coveredValidators appended := by
  fun_induction extendLoop remaining selectedProofs coveredValidators with
  | case1 remaining selectedProofs coveredValidators hempty =>
    rw [List.isEmpty_iff] at hempty
    subst hempty
    exact ⟨[], by simp, IsGreedyCover.nil (by simp)⟩
  | case2 remaining selectedProofs coveredValidators hempty bestSelection hnone =>
    have hne : remaining.zipIdx.map (fun (proof, index) =>
        (index, newCount coveredValidators proof)) ≠ [] := by
      simpa [List.isEmpty_iff] using hempty
    have hsome : bestSelection.isSome := maxByKey_isSome hne
    rw [hnone] at hsome
    cases hsome
  | case3 remaining selectedProofs coveredValidators hempty bestSelection bestIndex hbest =>
    obtain ⟨-, -, -, hmax⟩ := bestSelection_spec hbest
    exact ⟨[], by simp,
      IsGreedyCover.nil fun p hp => newCount_eq_zero_iff.mp (Nat.le_zero.mp (hmax p hp))⟩
  | case4 remaining selectedProofs coveredValidators hempty bestSelection bestIndex count hbest
      hcount e herror =>
    obtain ⟨proof, hget, -, -⟩ := bestSelection_spec hbest
    have hlt : bestIndex < remaining.length := (List.getElem?_eq_some_iff.mp hget).1
    rw [vecSwapRemove, dif_pos hlt] at herror
    cases herror
  | case5 remaining selectedProofs coveredValidators hempty bestSelection bestIndex count hbest
      hcount best rest hremove ih =>
    obtain ⟨proof, hget, hnew, -⟩ := bestSelection_spec hbest
    have hperm := vecSwapRemove_perm hremove
    have hbest : best = proof := by
      rw [vecSwapRemove_get hremove, Option.some.injEq] at hget
      exact hget
    obtain ⟨appended, hrun, hcover⟩ := ih (List.nodup_cons.mp (hperm.nodup_iff.mpr hnodup)).2
    refine ⟨best :: appended, ?_, IsGreedyCover.cons hperm hnodup ?_ ?_⟩
    · rw [hrun, coverParticipants_eq, List.append_assoc, List.singleton_append, coverOf_cons]
    · rw [← newCount_eq_zero_iff, hbest, hnew]
      exact hcount
    · rw [← coverParticipants_eq]
      exact hcover

/-- For every set of proofs and every initial covered set, `extend_proofs_greedily` returns; the
proofs it appends are distinct members of the set, each adding a participant not covered
before it; the covered set is the initial one with the appended proofs' participants; and the
participants of every proof it leaves out are covered. -/
theorem extendProofsGreedily_greedy_cover (proofs : HashSet PayloadProof)
    (selectedProofs : List PayloadProof) (coveredValidators : Finset Nat) :
    ∃ appended, extendProofsGreedily (some proofs) selectedProofs coveredValidators =
        .ok (selectedProofs ++ appended,
          coverOf PayloadProof.participantSet coveredValidators appended) ∧
      appended.Nodup ∧ (∀ p ∈ appended, p ∈ proofs.elems) ∧
      AddsNew PayloadProof.participantSet coveredValidators appended ∧
      (∀ v, v ∈ coverOf PayloadProof.participantSet coveredValidators appended ↔
        v ∈ coveredValidators ∨ ∃ p ∈ appended, v ∈ p.participantSet) ∧
      ∀ p ∈ proofs.elems, p ∉ appended →
        p.participantSet ⊆ coverOf PayloadProof.participantSet coveredValidators appended := by
  obtain ⟨appended, hrun, hcover⟩ :=
    extendLoop_greedy proofs.elems selectedProofs coveredValidators proofs.nodup
  exact ⟨appended, hrun, hcover.nodup, hcover.subset, hcover.addsNew, fun _ => mem_coverOf,
    hcover.maximal⟩

end Ream.ForkChoice
