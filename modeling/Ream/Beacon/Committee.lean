import Ream.Beacon.State

/-!
# Shuffling and beacon committees

`compute_shuffled_index`, `compute_committee` (`misc.rs`) and the committee accessors of
`BeaconState`. A root is 32 bytes, most significant first; a division by zero, which panics in
the source, is an error here.
-/

namespace Ream.Beacon

open Ssz Ream.Consensus

def SHUFFLE_ROUND_COUNT : Nat := 90

def TARGET_COMMITTEE_SIZE : Nat := 128

def MAX_COMMITTEES_PER_SLOT : Nat := 64

/-- `DOMAIN_BEACON_ATTESTER`, `0x01000000`. -/
def DOMAIN_BEACON_ATTESTER : List UInt8 := [1, 0, 0, 0]

/-- The 32 bytes of a root. -/
def asSlice (root : B256) : List UInt8 :=
  (List.range 32).map fun k => UInt8.ofNat (root.val / 256 ^ (31 - k))

/-- The first `k` bytes of `v.to_le_bytes()`. -/
def leBytes (v k : Nat) : List UInt8 :=
  (List.range k).map fun i => UInt8.ofNat (v / 256 ^ i)

/-- `bytes_to_int64`: the first eight bytes, least significant first. -/
def bytesToInt64 (slice : List UInt8) : Nat :=
  (slice.take 8).foldr (fun byte acc => byte.toNat + 256 * acc) 0

/-- The bytes hashed for round `round`: the seed, then the round as one byte. -/
def seedWithRound (seed : B256) (round : Nat) : List UInt8 :=
  asSlice seed ++ [UInt8.ofNat round]

/-- The pivot of a round: the first eight bytes of its hash, modulo the index count. -/
def shufflePivot (hash : List UInt8 → B256) (indexCount : Nat) (seed : B256) (round : Nat) :
    Nat :=
  bytesToInt64 (asSlice (hash (seedWithRound seed round))) % indexCount

/-- The decision bit of a round at `position`: bit `position % 8` of byte
`(position % 256) / 8` of the hash of the round's bytes and `position / 256`. The byte index is
below 32, so it reads inside the hash. -/
def shuffleBit (hash : List UInt8 → B256) (seed : B256) (round position : Nat) : Bool :=
  let seedWithPosition := seedWithRound seed round ++ leBytes (position / 256) 4
  let source := asSlice (hash seedWithPosition)
  let byte := source.getD ((position % 256) / 8) 0
  (byte >>> UInt8.ofNat (position % 8)) % 2 == 1

def computeShuffledIndex (hash : List UInt8 → B256) (index indexCount : Nat) (seed : B256) :
    Except String Nat :=
  if index < indexCount then
    .ok ((List.range SHUFFLE_ROUND_COUNT).foldl (fun index round =>
      let pivot := shufflePivot hash indexCount seed round
      let flip := (pivot + (indexCount - index)) % indexCount
      let position := max index flip
      if shuffleBit hash seed round position then flip else index) index)
  else .error "Index must be less than index_count"

/-- Committee `index` of `count`: the shuffled positions of its slice of the indices. -/
def computeCommittee (hash : List UInt8 → B256) (indices : List Nat) (seed : B256)
    (index count : Nat) : Except String (List Nat) :=
  if count = 0 then .error "attempt to divide by zero"
  else
    let start := indices.length * index / count
    let end_ := indices.length * (index + 1) / count
    (List.range' start (end_ - start)).mapM fun i => do
      let shuffledIndex ← computeShuffledIndex hash i indices.length seed
      match indices[shuffledIndex]? with
      | some validatorIndex => .ok validatorIndex
      | none => .error s!"Index out of bounds: {shuffledIndex}"

namespace BeaconState

variable (H : BeaconHash) (s : BeaconState)

def getSeed (epoch : Nat) (domainType : List UInt8) : B256 :=
  let mix := s.getRandaoMix (epoch + EPOCHS_PER_HISTORICAL_VECTOR - MIN_SEED_LOOKAHEAD - 1)
  H.hash (domainType ++ leBytes epoch 8 ++ asSlice mix)

/-- `(len / SLOTS_PER_EPOCH / TARGET_COMMITTEE_SIZE).clamp(1, MAX_COMMITTEES_PER_SLOT)`. -/
def getCommitteeCountPerSlot (epoch : Nat) : Nat :=
  let count := (s.getActiveValidatorIndices epoch).length / SLOTS_PER_EPOCH / TARGET_COMMITTEE_SIZE
  if count < 1 then 1 else if count > MAX_COMMITTEES_PER_SLOT then MAX_COMMITTEES_PER_SLOT
  else count

def getBeaconCommittee (slot index : Nat) : Except String (List Nat) :=
  let epoch := computeEpochAtSlot slot
  let committeesPerSlot := s.getCommitteeCountPerSlot epoch
  computeCommittee H.hash (s.getActiveValidatorIndices epoch)
    (s.getSeed H epoch DOMAIN_BEACON_ATTESTER)
    ((slot % SLOTS_PER_EPOCH) * committeesPerSlot + index) (committeesPerSlot * SLOTS_PER_EPOCH)

/-- The two nested `for` loops of `get_committee_assignment`, over the `(slot, index)` pairs in
order: the first committee that contains the validator, with its index and slot. -/
def findAssignment (validatorIndex : Nat) :
    List (Nat × Nat) → Except String (Option (List Nat × Nat × Nat))
  | [] => .ok none
  | (slot, index) :: rest => do
    let committee ← s.getBeaconCommittee H slot index
    if committee.contains validatorIndex then pure (some (committee, index, slot))
    else findAssignment validatorIndex rest

/-- The `(slot, index)` pairs of `epoch`, slot by slot: the `u64` range
`start_slot..start_slot + SLOTS_PER_EPOCH`, empty when its end wraps. -/
def assignmentPairs (epoch : Nat) : List (Nat × Nat) :=
  let startSlot := computeStartSlotAtEpoch epoch
  (List.range' startSlot ((startSlot + SLOTS_PER_EPOCH) % 2 ^ 64 - startSlot)).flatMap fun slot =>
    (List.range (s.getCommitteeCountPerSlot epoch)).map fun index => (slot, index)

def getCommitteeAssignment (epoch validatorIndex : Nat) :
    Except String (Option (List Nat × Nat × Nat)) :=
  let nextEpoch := s.getCurrentEpoch + 1
  if epoch ≤ nextEpoch then s.findAssignment H validatorIndex (s.assignmentPairs epoch)
  else .error
    s!"Requested epoch {epoch} is beyond the allowed maximum (next epoch: {nextEpoch})"

end BeaconState

end Ream.Beacon
