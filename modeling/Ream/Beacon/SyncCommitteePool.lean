import Ream.Consensus.Types
import Ream.Ssz.Containers
import Ream.Lib.AssocMap
import Ream.Lib.Writes

/-!
# The sync committee contribution pool

`SyncCommitteePool::aggregate_messages` folds subcommittee messages into the contributions of a
key. BLS aggregation is a commutative-monoid parameter (`Aggregation`), and every message keeps
`Consistent` (`Consistent.aggregateMessage`).
-/

namespace Ream.Beacon

open Ream.Consensus (B256)

/-- BLS aggregation as the pool uses it: a failure for an invalid signature, and otherwise the
aggregate, which is the product in the monoid of signatures. -/
structure Aggregation (σ : Type) [CommMonoid σ] where
  aggregate : List σ → Except String σ
  aggregate_eq : ∀ sigs aggregated, aggregate sigs = .ok aggregated → aggregated = sigs.prod

structure SyncCommitteeDataKey where
  slot : Nat
  beaconBlockRoot : B256
  subcommitteeIndex : Nat
  deriving DecidableEq, Repr

structure SyncCommitteeMessage (σ : Type) where
  slot : Nat
  beaconBlockRoot : B256
  validatorIndex : Nat
  signature : σ

structure SyncCommitteeContribution (σ : Type) where
  slot : Nat
  beaconBlockRoot : B256
  subcommitteeIndex : Nat
  aggregationBits : Ssz.BitVector 128
  signature : σ

/-- The contributions map of the pool and its cap; the map of raw messages, which
`aggregate_messages` neither reads nor writes, is left out. -/
structure SyncCommitteePool (σ : Type) where
  contributions : AssocMap SyncCommitteeDataKey (List (SyncCommitteeContribution σ))
  maxContributionsPerKey : Nat

namespace SyncCommitteePool

variable {σ : Type} [CommMonoid σ] (agg : Aggregation σ)

def new (maxContributionsPerKey : Nat) : SyncCommitteePool σ :=
  ⟨AssocMap.empty, maxContributionsPerKey⟩

/-- One contribution's turn in the loop over the contributions: aggregate the two signatures,
then set the bit; either failure passes the message on to the next contribution. -/
def absorbMessage (message : SyncCommitteeMessage σ) (indexInSubcommittee : Nat)
    (contribution : SyncCommitteeContribution σ) : Option (SyncCommitteeContribution σ × Unit) :=
  match agg.aggregate [contribution.signature, message.signature] with
  | .ok aggregatedSig =>
    match contribution.aggregationBits.set indexInSubcommittee true with
    | .ok aggregationBits =>
      some ({ contribution with aggregationBits, signature := aggregatedSig }, ())
    | .error _ => none
  | .error _ => none

/-- The body of the loop over the messages, for one message and its index. -/
def aggregateMessage (slot : Nat) (beaconBlockRoot : B256) (subcommitteeIndex : Nat)
    (maxContributionsPerKey : Nat) (contributions : List (SyncCommitteeContribution σ)) :
    SyncCommitteeMessage σ × Nat → List (SyncCommitteeContribution σ)
  | (message, indexInSubcommittee) =>
    if contributions.any (·.aggregationBits.getD indexInSubcommittee) then contributions
    else
      match contributions.updateFirst (absorbMessage agg message indexInSubcommittee) with
      | some (contributions', ()) => contributions'
      | none =>
        -- no contribution took the message: a new one, under the cap and for a valid signature
        if contributions.length < maxContributionsPerKey then
          match agg.aggregate [message.signature] with
          | .ok validSig =>
            match (default : Ssz.BitVector 128).set indexInSubcommittee true with
            | .ok aggregationBits =>
              contributions ++ [⟨slot, beaconBlockRoot, subcommitteeIndex, aggregationBits, validSig⟩]
            | .error _ => contributions
          | .error _ => contributions
        else contributions

/-- "Ensure we have at least one aggregate to work with": an empty key gets a contribution with
no bits and the infinity signature. -/
def ensureContribution (slot : Nat) (beaconBlockRoot : B256) (subcommitteeIndex : Nat)
    (contributions : List (SyncCommitteeContribution σ)) : List (SyncCommitteeContribution σ) :=
  if contributions.isEmpty then [⟨slot, beaconBlockRoot, subcommitteeIndex, default, 1⟩]
  else contributions

def aggregateMessages (pool : SyncCommitteePool σ) (slot : Nat) (beaconBlockRoot : B256)
    (subcommitteeIndex : Nat) (messages : List (SyncCommitteeMessage σ × Nat)) :
    SyncCommitteePool σ :=
  let key : SyncCommitteeDataKey := ⟨slot, beaconBlockRoot, subcommitteeIndex⟩
  let contributions := ensureContribution slot beaconBlockRoot subcommitteeIndex
    (pool.contributions.getD key [])
  { pool with
    contributions := pool.contributions.insert key
      (messages.foldl (aggregateMessage agg slot beaconBlockRoot subcommitteeIndex
        pool.maxContributionsPerKey) contributions) }

/-- One call of `aggregate_messages`. -/
structure AggregateCall (σ : Type) where
  slot : Nat
  beaconBlockRoot : B256
  subcommitteeIndex : Nat
  messages : List (SyncCommitteeMessage σ × Nat)

def AggregateCall.key (call : AggregateCall σ) : SyncCommitteeDataKey :=
  ⟨call.slot, call.beaconBlockRoot, call.subcommitteeIndex⟩

/-- A sequence of calls, in order. -/
def runAggregateCalls (calls : List (AggregateCall σ)) (pool : SyncCommitteePool σ) :
    SyncCommitteePool σ :=
  calls.foldl (fun pool call =>
    pool.aggregateMessages agg call.slot call.beaconBlockRoot call.subcommitteeIndex call.messages)
    pool

/-- The messages the calls feed to one key, in order. -/
def fedTo (key : SyncCommitteeDataKey) (calls : List (AggregateCall σ)) :
    List (SyncCommitteeMessage σ × Nat) :=
  (calls.filter fun call => decide (call.key = key)).flatMap AggregateCall.messages

/-- A contribution's signature is the product of one fed message for each of its set bits, a
message with that bit's index. -/
def SignedBy (fed : List (SyncCommitteeMessage σ × Nat)) (sigOf : Nat → σ)
    (contribution : SyncCommitteeContribution σ) : Prop :=
  contribution.signature = ∏ i ∈ contribution.aggregationBits.setBits, sigOf i ∧
    ∀ i ∈ contribution.aggregationBits.setBits,
      ∃ message, (message, i) ∈ fed ∧ message.signature = sigOf i

/-- What the contributions of one key keep after the messages `fed` to it. -/
structure Consistent (maxContributionsPerKey : Nat) (fed : List (SyncCommitteeMessage σ × Nat))
    (contributions : List (SyncCommitteeContribution σ)) : Prop where
  unique : ∀ i, contributions.countP (·.aggregationBits.getD i) ≤ 1
  signed : ∃ sigOf : Nat → σ, ∀ c ∈ contributions, SignedBy fed sigOf c
  length_le : contributions.length ≤ max 1 maxContributionsPerKey

variable {agg}

section Signed

variable {fed fed' : List (SyncCommitteeMessage σ × Nat)} {sigOf : Nat → σ}
  {contribution : SyncCommitteeContribution σ}

theorem SignedBy.mono (h : SignedBy fed sigOf contribution) (hsub : ∀ x ∈ fed, x ∈ fed') :
    SignedBy fed' sigOf contribution := by
  refine ⟨h.1, fun i hi => ?_⟩
  obtain ⟨message, hmem, hsig⟩ := h.2 i hi
  exact ⟨message, hsub _ hmem, hsig⟩

theorem SignedBy.update_of_getD_false {i : Nat} (h : SignedBy fed sigOf contribution)
    (hi : contribution.aggregationBits.getD i = false) (s : σ) :
    SignedBy fed (Function.update sigOf i s) contribution := by
  have hne : ∀ j ∈ contribution.aggregationBits.setBits, j ≠ i := by
    rintro j hj rfl
    rw [Ssz.BitVector.mem_setBits, hi] at hj
    exact Bool.false_ne_true hj
  refine ⟨?_, fun j hj => ?_⟩
  · rw [h.1]
    exact Finset.prod_congr rfl fun j hj => (Function.update_of_ne (hne j hj) s sigOf).symm
  · rw [Function.update_of_ne (hne j hj)]
    exact h.2 j hj

theorem SignedBy.append_of_getD_false {i : Nat} (h : SignedBy fed sigOf contribution)
    (hi : contribution.aggregationBits.getD i = false) (message : SyncCommitteeMessage σ) :
    SignedBy (fed ++ [(message, i)]) (Function.update sigOf i message.signature) contribution :=
  (h.update_of_getD_false hi message.signature).mono fun _ hx => List.mem_append_left _ hx

/-- Absorbing a message at a clear bit: the bit joins the set ones and the message's signature
joins the product. -/
theorem SignedBy.absorb {i : Nat} (h : SignedBy fed sigOf contribution)
    (hi : contribution.aggregationBits.getD i = false) (hlt : i < 128)
    (message : SyncCommitteeMessage σ) :
    SignedBy (fed ++ [(message, i)]) (Function.update sigOf i message.signature)
      { contribution with
        aggregationBits := contribution.aggregationBits.update i true
        signature := contribution.signature * message.signature } := by
  have hnot : i ∉ contribution.aggregationBits.setBits := by
    rw [Ssz.BitVector.mem_setBits, hi]
    exact Bool.false_ne_true
  have hkeep := h.append_of_getD_false hi message
  refine ⟨?_, fun j hj => ?_⟩
  · show contribution.signature * message.signature =
      ∏ j ∈ (contribution.aggregationBits.update i true).setBits,
        Function.update sigOf i message.signature j
    rw [Ssz.BitVector.setBits_update_true _ hlt, Finset.prod_insert hnot, Function.update_self,
      ← hkeep.1, mul_comm]
  · rw [Ssz.BitVector.setBits_update_true _ hlt, Finset.mem_insert] at hj
    rcases hj with rfl | hj
    · exact ⟨message, List.mem_append_right fed (List.mem_singleton_self _),
        (Function.update_self j _ sigOf).symm⟩
    · exact hkeep.2 j hj

end Signed

theorem absorbMessage_eq_some {message : SyncCommitteeMessage σ} {i : Nat}
    {contribution contribution' : SyncCommitteeContribution σ}
    (h : absorbMessage agg message i contribution = some (contribution', ())) :
    i < 128 ∧ contribution' = { contribution with
      aggregationBits := contribution.aggregationBits.update i true
      signature := contribution.signature * message.signature } := by
  unfold absorbMessage at h
  split at h
  · rename_i aggregatedSig hsig
    split at h
    · rename_i aggregationBits hbits
      obtain ⟨hlt, rfl⟩ := Ssz.BitVector.set_ok hbits
      have hprod : aggregatedSig = contribution.signature * message.signature := by
        rw [agg.aggregate_eq _ _ hsig, List.prod_cons, List.prod_singleton]
      cases h
      rw [hprod]
      exact ⟨hlt, rfl⟩
    · cases h
  · cases h

variable {maxContributionsPerKey : Nat} {fed : List (SyncCommitteeMessage σ × Nat)}
  {contributions : List (SyncCommitteeContribution σ)}

omit [CommMonoid σ] in
theorem countP_getD_eq_zero {i : Nat} (hfree : ∀ c ∈ contributions, c.aggregationBits.getD i = false) :
    contributions.countP (·.aggregationBits.getD i) = 0 :=
  List.countP_eq_zero.mpr fun d hd => by rw [hfree d hd]; exact Bool.false_ne_true

theorem consistent_nil : Consistent maxContributionsPerKey fed ([] : List (SyncCommitteeContribution σ)) :=
  ⟨fun _ => Nat.zero_le 1, ⟨fun _ => 1, fun _ h => nomatch h⟩, Nat.zero_le _⟩

theorem Consistent.mono {fed' : List (SyncCommitteeMessage σ × Nat)}
    (h : Consistent maxContributionsPerKey fed contributions) (hsub : ∀ x ∈ fed, x ∈ fed') :
    Consistent maxContributionsPerKey fed' contributions := by
  obtain ⟨sigOf, hsig⟩ := h.signed
  exact ⟨h.unique, ⟨sigOf, fun c hc => (hsig c hc).mono hsub⟩, h.length_le⟩

theorem Consistent.ensureContribution (h : Consistent maxContributionsPerKey fed contributions)
    (slot : Nat) (beaconBlockRoot : B256) (subcommitteeIndex : Nat) :
    Consistent maxContributionsPerKey fed
      (ensureContribution slot beaconBlockRoot subcommitteeIndex contributions) := by
  unfold SyncCommitteePool.ensureContribution
  split
  · refine ⟨fun _ => List.countP_le_length, ⟨fun _ => 1, fun c hc => ?_⟩, Nat.le_max_left 1 _⟩
    rw [List.mem_singleton.mp hc]
    refine ⟨?_, fun i hi => ?_⟩
    · show (1 : σ) = ∏ i ∈ (default : Ssz.BitVector 128).setBits, (fun _ => (1 : σ)) i
      rw [Ssz.BitVector.setBits_default, Finset.prod_empty]
    · rw [Ssz.BitVector.setBits_default] at hi
      exact absurd hi (Finset.notMem_empty i)
  · exact h

theorem Consistent.absorb {message : SyncCommitteeMessage σ} {i : Nat}
    {contributions' : List (SyncCommitteeContribution σ)}
    (h : Consistent maxContributionsPerKey fed contributions)
    (hfree : ∀ c ∈ contributions, c.aggregationBits.getD i = false)
    (habsorb : contributions.updateFirst (absorbMessage agg message i) = some (contributions', ())) :
    Consistent maxContributionsPerKey (fed ++ [(message, i)]) contributions' := by
  obtain ⟨j, c, c', hc, hcc', rfl⟩ := List.updateFirst_eq_some habsorb
  obtain ⟨hlt, rfl⟩ := absorbMessage_eq_some hcc'
  obtain ⟨hj, rfl⟩ := List.getElem?_eq_some_iff.mp hc
  have hmem : contributions[j] ∈ contributions := List.getElem_mem hj
  obtain ⟨sigOf, hsig⟩ := h.signed
  refine ⟨fun k => ?_, ⟨Function.update sigOf i message.signature, fun d hd => ?_⟩, ?_⟩
  · rw [List.countP_set hj, Ssz.BitVector.getD_update _ true hlt]
    by_cases hk : k = i
    · subst hk
      simp [countP_getD_eq_zero hfree, hfree _ hmem]
    · have hpos : contributions[j].aggregationBits.getD k = true →
          1 ≤ contributions.countP (·.aggregationBits.getD k) :=
        fun hb => List.countP_pos_iff.mpr ⟨_, hmem, hb⟩
      have hle := h.unique k
      rw [if_neg hk]
      by_cases hb : contributions[j].aggregationBits.getD k = true
      · rw [if_pos hb]
        have := hpos hb
        omega
      · rw [if_neg hb]
        omega
  · rcases List.mem_or_eq_of_mem_set hd with hd | rfl
    · exact (hsig d hd).append_of_getD_false (hfree d hd) message
    · exact (hsig _ hmem).absorb (hfree _ hmem) hlt message
  · rw [List.length_set]
    exact h.length_le

theorem Consistent.push {message : SyncCommitteeMessage σ} {i : Nat} {validSig : σ}
    {aggregationBits : Ssz.BitVector 128} (slot : Nat) (beaconBlockRoot : B256)
    (subcommitteeIndex : Nat) (h : Consistent maxContributionsPerKey fed contributions)
    (hfree : ∀ c ∈ contributions, c.aggregationBits.getD i = false)
    (hlen : contributions.length < maxContributionsPerKey)
    (hsig : agg.aggregate [message.signature] = .ok validSig)
    (hbits : (default : Ssz.BitVector 128).set i true = .ok aggregationBits) :
    Consistent maxContributionsPerKey (fed ++ [(message, i)])
      (contributions ++ [⟨slot, beaconBlockRoot, subcommitteeIndex, aggregationBits, validSig⟩]) := by
  obtain ⟨hlt, rfl⟩ := Ssz.BitVector.set_ok hbits
  have hvalid : validSig = message.signature := by
    rw [agg.aggregate_eq _ _ hsig, List.prod_singleton]
  subst hvalid
  obtain ⟨sigOf, hsigOf⟩ := h.signed
  have hdefault : SignedBy fed sigOf
      (⟨slot, beaconBlockRoot, subcommitteeIndex, default, 1⟩ : SyncCommitteeContribution σ) :=
    ⟨by rw [Ssz.BitVector.setBits_default, Finset.prod_empty], fun j hj => by simp at hj⟩
  have hfresh := hdefault.absorb (Ssz.BitVector.getD_default i) hlt message
  rw [one_mul] at hfresh
  refine ⟨fun k => ?_, ⟨Function.update sigOf i message.signature, fun d hd => ?_⟩, ?_⟩
  · rw [List.countP_append, List.countP_singleton, Ssz.BitVector.getD_update _ true hlt]
    by_cases hk : k = i
    · subst hk
      simp [countP_getD_eq_zero hfree]
    · have := h.unique k
      simp [hk, this]
  · rcases List.mem_append.mp hd with hd | hd
    · exact (hsigOf d hd).append_of_getD_false (hfree d hd) message
    · rw [List.mem_singleton.mp hd]
      exact hfresh
  · rw [List.length_append, List.length_singleton]
    omega

variable (agg)

theorem Consistent.aggregateMessage (h : Consistent maxContributionsPerKey fed contributions)
    (slot : Nat) (beaconBlockRoot : B256) (subcommitteeIndex : Nat)
    (entry : SyncCommitteeMessage σ × Nat) :
    Consistent maxContributionsPerKey (fed ++ [entry])
      (aggregateMessage agg slot beaconBlockRoot subcommitteeIndex maxContributionsPerKey
        contributions entry) := by
  obtain ⟨message, i⟩ := entry
  have hkeep := h.mono (fun x hx => List.mem_append_left [(message, i)] hx)
  rw [SyncCommitteePool.aggregateMessage]
  split
  · exact hkeep
  rename_i hdup
  have hfree : ∀ c ∈ contributions, c.aggregationBits.getD i = false := fun c hc =>
    Bool.eq_false_iff.mpr fun hb => hdup (List.any_eq_true.mpr ⟨c, hc, hb⟩)
  split
  · rename_i contributions' habsorb
    exact h.absorb hfree habsorb
  · split
    · rename_i hlen
      split
      · rename_i validSig hsig
        split
        · rename_i aggregationBits hbits
          exact h.push slot beaconBlockRoot subcommitteeIndex hfree hlen hsig hbits
        · exact hkeep
      · exact hkeep
    · exact hkeep

/-- The loop over a call's messages keeps the contributions consistent, the messages added to
those fed. -/
theorem Consistent.foldl_aggregateMessage (h : Consistent maxContributionsPerKey fed contributions)
    (slot : Nat) (beaconBlockRoot : B256) (subcommitteeIndex : Nat)
    (messages : List (SyncCommitteeMessage σ × Nat)) :
    Consistent maxContributionsPerKey (fed ++ messages)
      (messages.foldl (SyncCommitteePool.aggregateMessage agg slot beaconBlockRoot
        subcommitteeIndex maxContributionsPerKey) contributions) := by
  have hrun := Loop.foldl_prefix_invariant
    (SyncCommitteePool.aggregateMessage agg slot beaconBlockRoot subcommitteeIndex
      maxContributionsPerKey)
    (fun p contributions => Consistent maxContributionsPerKey (fed ++ p) contributions)
    (fun p entry contributions hp => by
      rw [← List.append_assoc]
      exact hp.aggregateMessage agg slot beaconBlockRoot subcommitteeIndex entry)
    messages (show Consistent maxContributionsPerKey (fed ++ []) contributions by
      rw [List.append_nil]
      exact h)
  rwa [List.nil_append] at hrun

theorem getD_aggregateMessages (pool : SyncCommitteePool σ) (slot : Nat) (beaconBlockRoot : B256)
    (subcommitteeIndex : Nat) (messages : List (SyncCommitteeMessage σ × Nat))
    (key : SyncCommitteeDataKey) :
    (pool.aggregateMessages agg slot beaconBlockRoot subcommitteeIndex messages).contributions.getD
        key [] =
      if key = ⟨slot, beaconBlockRoot, subcommitteeIndex⟩ then
        messages.foldl (aggregateMessage agg slot beaconBlockRoot subcommitteeIndex
          pool.maxContributionsPerKey) (ensureContribution slot beaconBlockRoot subcommitteeIndex
            (pool.contributions.getD ⟨slot, beaconBlockRoot, subcommitteeIndex⟩ []))
      else pool.contributions.getD key [] := by
  simp only [aggregateMessages, AssocMap.getD_eq, AssocMap.get?_insert]
  by_cases hk : key = ⟨slot, beaconBlockRoot, subcommitteeIndex⟩
  · rw [if_pos hk, if_pos hk]
    rfl
  · rw [if_neg hk, if_neg hk]

theorem consistent_aggregateMessages {pool : SyncCommitteePool σ}
    {fed : SyncCommitteeDataKey → List (SyncCommitteeMessage σ × Nat)}
    (h : ∀ key, Consistent pool.maxContributionsPerKey (fed key) (pool.contributions.getD key []))
    (slot : Nat) (beaconBlockRoot : B256) (subcommitteeIndex : Nat)
    (messages : List (SyncCommitteeMessage σ × Nat)) (key : SyncCommitteeDataKey) :
    Consistent pool.maxContributionsPerKey
      (fed key ++ if key = ⟨slot, beaconBlockRoot, subcommitteeIndex⟩ then messages else [])
      ((pool.aggregateMessages agg slot beaconBlockRoot subcommitteeIndex messages).contributions.getD
        key []) := by
  rw [getD_aggregateMessages]
  by_cases hk : key = ⟨slot, beaconBlockRoot, subcommitteeIndex⟩
  · rw [if_pos hk, if_pos hk]
    subst hk
    exact ((h _).ensureContribution slot beaconBlockRoot subcommitteeIndex).foldl_aggregateMessage
      agg slot beaconBlockRoot subcommitteeIndex messages
  · rw [if_neg hk, if_neg hk, List.append_nil]
    exact h key

omit [CommMonoid σ] in
theorem fedTo_append_singleton (key : SyncCommitteeDataKey) (calls : List (AggregateCall σ))
    (call : AggregateCall σ) :
    fedTo key (calls ++ [call]) = fedTo key calls ++ if key = call.key then call.messages else [] := by
  unfold fedTo
  rw [List.filter_append, List.flatMap_append]
  by_cases hk : key = call.key
  · simp [hk]
  · simp [hk, Ne.symm hk]

theorem aggregateMessages_cons_of_getD (pool : SyncCommitteePool σ) (slot : Nat)
    (beaconBlockRoot : B256) (subcommitteeIndex : Nat) (message : SyncCommitteeMessage σ)
    (i : Nat) (messages : List (SyncCommitteeMessage σ × Nat))
    (hset : ∃ c ∈ pool.contributions.getD ⟨slot, beaconBlockRoot, subcommitteeIndex⟩ [],
      c.aggregationBits.getD i = true) :
    pool.aggregateMessages agg slot beaconBlockRoot subcommitteeIndex ((message, i) :: messages) =
      pool.aggregateMessages agg slot beaconBlockRoot subcommitteeIndex messages := by
  obtain ⟨c, hc, hbit⟩ := hset
  have hensure : ensureContribution slot beaconBlockRoot subcommitteeIndex
      (pool.contributions.getD ⟨slot, beaconBlockRoot, subcommitteeIndex⟩ []) =
        pool.contributions.getD ⟨slot, beaconBlockRoot, subcommitteeIndex⟩ [] := by
    unfold ensureContribution
    rw [if_neg (by rw [List.isEmpty_iff]; exact List.ne_nil_of_mem hc)]
  have hskip : aggregateMessage agg slot beaconBlockRoot subcommitteeIndex
      pool.maxContributionsPerKey
      (pool.contributions.getD ⟨slot, beaconBlockRoot, subcommitteeIndex⟩ []) (message, i) =
        pool.contributions.getD ⟨slot, beaconBlockRoot, subcommitteeIndex⟩ [] := by
    rw [aggregateMessage, if_pos (List.any_eq_true.mpr ⟨c, hc, hbit⟩)]
  simp only [aggregateMessages, List.foldl_cons]
  rw [hensure, hskip]

theorem consistent_runAggregateCalls (maxContributionsPerKey : Nat)
    (calls : List (AggregateCall σ)) (key : SyncCommitteeDataKey) :
    Consistent maxContributionsPerKey (fedTo key calls)
      ((runAggregateCalls agg calls (new maxContributionsPerKey)).contributions.getD key []) := by
  have hrun := Loop.foldl_prefix_invariant
    (fun pool (call : AggregateCall σ) => pool.aggregateMessages agg call.slot call.beaconBlockRoot
      call.subcommitteeIndex call.messages)
    (fun p (pool : SyncCommitteePool σ) => pool.maxContributionsPerKey = maxContributionsPerKey ∧
      ∀ key, Consistent maxContributionsPerKey (fedTo key p) (pool.contributions.getD key []))
    (fun p call pool hp => by
      obtain ⟨hmax, hp⟩ := hp
      refine ⟨hmax, fun key => ?_⟩
      rw [fedTo_append_singleton, ← hmax]
      rw [← hmax] at hp
      exact consistent_aggregateMessages agg hp call.slot call.beaconBlockRoot call.subcommitteeIndex
        call.messages key)
    calls (show (new maxContributionsPerKey : SyncCommitteePool σ).maxContributionsPerKey =
        maxContributionsPerKey ∧ ∀ key, Consistent maxContributionsPerKey (fedTo key [])
          ((new maxContributionsPerKey : SyncCommitteePool σ).contributions.getD key []) from
      ⟨rfl, fun _ => consistent_nil⟩)
  rw [List.nil_append] at hrun
  exact hrun.2 key

/-- For every key and every sequence of calls from an empty pool: no bit is set in two
contributions, each signature is the product of one fed message per set bit, a message whose
index is already set changes nothing, and the contributions stay within the cap. -/
theorem sync_contributions_consistent (maxContributionsPerKey : Nat)
    (calls : List (AggregateCall σ)) (key : SyncCommitteeDataKey) :
    let pool := runAggregateCalls agg calls (new maxContributionsPerKey)
    let contributions := pool.contributions.getD key []
    (∀ i, contributions.countP (·.aggregationBits.getD i) ≤ 1) ∧
    (∃ sigOf : Nat → σ, ∀ c ∈ contributions,
      c.signature = ∏ i ∈ c.aggregationBits.setBits, sigOf i ∧
      ∀ i ∈ c.aggregationBits.setBits,
        ∃ message, (message, i) ∈ fedTo key calls ∧ message.signature = sigOf i) ∧
    (∀ (message : SyncCommitteeMessage σ) (i : Nat)
      (messages : List (SyncCommitteeMessage σ × Nat)),
      (∃ c ∈ contributions, c.aggregationBits.getD i = true) →
      pool.aggregateMessages agg key.slot key.beaconBlockRoot key.subcommitteeIndex
          ((message, i) :: messages) =
        pool.aggregateMessages agg key.slot key.beaconBlockRoot key.subcommitteeIndex messages) ∧
    contributions.length ≤ max 1 maxContributionsPerKey := by
  intro pool contributions
  have h := consistent_runAggregateCalls agg maxContributionsPerKey calls key
  exact ⟨h.unique, h.signed, fun message i messages hset =>
    aggregateMessages_cons_of_getD agg pool _ _ _ message i messages hset, h.length_le⟩

/-- The source's duplicate test: the same message at index 0 in two calls leaves one contribution
with one bit set. -/
example :
    let agg : Aggregation ℕ := ⟨fun sigs => .ok sigs.prod, fun _ _ h => (Except.ok.inj h).symm⟩
    let call : AggregateCall ℕ := ⟨100, 1, 1, [(⟨100, 1, 10, 1⟩, 0)]⟩
    let contributions :=
      (runAggregateCalls agg [call, call] (new 128)).contributions.getD call.key []
    contributions.map (fun c => c.aggregationBits.bits.count true) = [1] := by
  decide +kernel

end SyncCommitteePool

end Ream.Beacon
