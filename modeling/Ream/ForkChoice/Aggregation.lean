import Ream.ForkChoice.Operations
import Ream.ForkChoice.ProofCover

/-!
# Gossip signatures and committee aggregation

`on_gossip_attestation` and the three steps of `devnet5` aggregation: `aggregate_prepare`, the
proving outside the store, and `aggregate_apply`. Hash sets are duplicate-free lists and the
cryptography is a parameter.
-/

namespace Ream.ForkChoice

open Ssz Ream.Consensus

/-- `compute_subnet_id`. -/
def computeSubnetId (validatorId numCommittees : Nat) : Nat := validatorId % numCommittees

/-- `Signature::verify` of one validator's signature over a data root at a slot. -/
abbrev SignatureVerifier := PublicKey → Nat → B256 → Signature → Except String Bool

/-- `type_1_aggregate` and `type_1_to_wire`: the proof bytes of a job from its children's wires,
its raw signatures, its data root and its slot. -/
abbrev AggregateProver :=
  List (List UInt8 × List PublicKey) → List (PublicKey × Signature) → B256 → Nat →
    Except String (List UInt8)

/-- `AGG_RECENT_SLOTS` of `aggregate_prepare`. -/
def AGG_RECENT_SLOTS : Nat := 16

variable (T : TreeHash)

/-! ## Gossip -/

/-- The signature an aggregator keeps: its own subnet's signatures only. -/
def Store.keepGossipSignature (s : Store) (committeeCount validatorId : Nat) (dataRoot : B256)
    (signature : Signature) (isAggregator : Bool) : Store :=
  match s.validatorId with
  | some currentId =>
    if isAggregator ∧
        computeSubnetId currentId committeeCount = computeSubnetId validatorId committeeCount then
      { s with
        attestationSignatures := s.attestationSignatures.insert ⟨validatorId, dataRoot⟩ signature }
    else s
  | none => s

/-- `Store::on_gossip_attestation`, with `attestation_committee_count()`; the signature travels
beside the attestation. -/
def onGossipAttestation (verifySignature : SignatureVerifier) (committeeCount : Nat)
    (signedAttestation : SignedAttestation) (signature : Signature) (isAggregator : Bool) :
    StoreM Unit := do
  let s ← get
  let validatorId := signedAttestation.validatorId
  let data := signedAttestation.message
  let _ ← MonadExcept.ofExcept (s.validateAttestation data)
  let keyState ← match s.states.get? data.target.root with
    | some state => pure state
    | none => throw "No state available for signature verification"
  -- the `ensure!` on the index and the indexing that follows it
  match keyState.validators.data[validatorId]? with
  | none => throw s!"Validator {validatorId} not found in state"
  | some validator =>
    let signatureValid ← MonadExcept.ofExcept
      (verifySignature validator.attestationPublicKey data.slot (T.dataRoot data) signature)
    if !signatureValid then throw "Signature verification failed"
    else
      let dataRoot := T.dataRoot data
      modify fun s =>
        let s := s.keepGossipSignature committeeCount validatorId dataRoot signature isAggregator
        { s with attestationDataByRoot := s.attestationDataByRoot.insert dataRoot data }

/-! ## Preparing the jobs -/

/-- `AggregationJob`. -/
structure AggregationJob where
  data : AttestationData
  dataRoot : B256
  childWires : List (List UInt8 × List PublicKey)
  rawXmss : List (PublicKey × Signature)
  bits : BitList VALIDATOR_REGISTRY_LIMIT
  rawCount : Nat
  deriving DecidableEq, Repr

/-- `HashSet::extend`: the items not yet in the set, in order. -/
def HashSet.extend {α : Type} [DecidableEq α] (set : HashSet α) (items : List α) : HashSet α :=
  items.foldl (fun set item =>
      if h : item ∈ set.elems then set
      else ⟨set.elems ++ [item], List.nodup_append.mpr ⟨set.nodup, List.nodup_singleton item,
        fun _ hx _ hy => by rw [List.mem_singleton.mp hy]; exact fun hxy => h (hxy ▸ hx)⟩⟩)
    set

/-- The empty hash set. -/
def HashSet.empty {α : Type} : HashSet α := ⟨[], List.nodup_nil⟩

/-- `groups`: the signers of each known data among the gossip signatures. -/
def Store.signatureGroups (s : Store) : AssocMap AttestationData (List Nat) :=
  s.attestationSignatures.keys.foldl (fun groups key =>
      match s.attestationDataByRoot.get? key.dataRoot with
      | some data => groups.insert data (groups.getD data [] ++ [key.validatorId])
      | none => groups)
    AssocMap.empty

/-- `new_payloads` and `known_payloads`: the proofs of a payload table by known data. -/
def Store.payloadsByData (s : Store) (table : AssocMap SignatureKey (List PayloadProof)) :
    AssocMap AttestationData (HashSet PayloadProof) :=
  table.entries.foldl (fun payloads (key, proofs) =>
      match s.attestationDataByRoot.get? key.dataRoot with
      | some data => payloads.insert data ((payloads.getD data HashSet.empty).extend proofs)
      | none => payloads)
    AssocMap.empty

/-- The raw signatures of one data: each signer, in increasing order, not yet covered, with a
gossip signature and a validator in the head state. -/
def Store.rawEntries (s : Store) (headState : LeanState) (dataRoot : B256)
    (sortedIds : List Nat) (coveredValidators : Finset Nat) :
    List (Nat × PublicKey × Signature) × Finset Nat :=
  sortedIds.foldl (fun (entries, covered) validatorId =>
      if validatorId ∈ covered then (entries, covered)
      else
        match s.attestationSignatures.get? ⟨validatorId, dataRoot⟩,
            headState.validators.data[validatorId]? with
        | some signature, some validator =>
          (entries ++ [(validatorId, validator.attestationPublicKey, signature)],
            insert validatorId covered)
        | _, _ => (entries, covered))
    ([], coveredValidators)

/-- The members of a set of validator indices in increasing order. -/
def ascending (validators : Finset Nat) : List Nat :=
  (List.range (validators.sup id + 1)).filter (· ∈ validators)

/-- The participation bits of a job: one per covered validator, over the head state's
registry. -/
def jobBits (validatorCount : Nat) (coveredValidators : Finset Nat) :
    Except String (BitList VALIDATOR_REGISTRY_LIMIT) := do
  let bits ← (BitList.withCapacity validatorCount).mapError fun err =>
    s!"BitList error: {err.debug}"
  (ascending coveredValidators).foldlM (fun bits id =>
      (bits.set id true).mapError fun err => s!"Failed to set bits: {err.debug}")
    bits

/-- The wire of a child proof: its bytes and its participants' attestation keys. -/
def childWire (headState : LeanState) (child : PayloadProof) :
    Except String (List UInt8 × List PublicKey) := do
  let publicKeys ← child.toValidatorIndices.mapM fun validatorId =>
    match headState.validators.data[validatorId]? with
    | some validator => .ok validator.attestationPublicKey
    | none => .error s!"Validator index {validatorId} out of range during aggregation"
  pure (child.proof, publicKeys)

/-- The job of one data, or none when it has no raw signature and fewer than two child
proofs. -/
def Store.prepareJob (s : Store) (headState : LeanState)
    (groups : AssocMap AttestationData (List Nat))
    (newPayloads knownPayloads : AssocMap AttestationData (HashSet PayloadProof))
    (data : AttestationData) : Except String (Option AggregationJob) := do
  let dataRoot := T.dataRoot data
  let (childProofs, coveredValidators) ← extendProofsGreedily (newPayloads.get? data) [] ∅
  let (childProofs, coveredValidators) ←
    extendProofsGreedily (knownPayloads.get? data) childProofs coveredValidators
  let (rawEntries, coveredValidators) := match groups.get? data with
    | some validatorIds =>
      s.rawEntries headState dataRoot (validatorIds.insertionSort (· ≤ ·)) coveredValidators
    | none => ([], coveredValidators)
  if rawEntries.isEmpty ∧ childProofs.length < 2 then pure none
  else
    let rawEntries := rawEntries.insertionSort fun a b => a.1 ≤ b.1
    let bits ← jobBits headState.validators.len coveredValidators
    let childWires ← childProofs.mapM (childWire headState)
    pure (some
      { data, dataRoot, childWires
        rawXmss := rawEntries.map fun (_, publicKey, signature) => (publicKey, signature)
        bits, rawCount := rawEntries.length })

/-- `Store::aggregate_prepare`: a job for each recent data with gossip signatures or new
payloads, the latest slots first. -/
def Store.aggregatePrepare (s : Store) : Except String (List AggregationJob) := do
  let headState ← match s.states.get? s.head with
    | some state => pure state
    | none => .error "Head state not found"
  let groups := s.signatureGroups
  let newPayloads := s.payloadsByData s.latestNewAggregatedPayloads
  let knownPayloads := s.payloadsByData s.latestKnownAggregatedPayloads
  let keys := groups.keys ++ newPayloads.keys.filter (· ∉ groups.keys)
  let keys := keys.filter fun data => headState.slot ≤ data.slot + AGG_RECENT_SLOTS
  let jobs ← keys.filterMapM (s.prepareJob T headState groups newPayloads knownPayloads)
  pure (jobs.insertionSort fun a b => b.data.slot ≤ a.data.slot)

/-! ## Proving and applying -/

/-- `prove_aggregation_jobs`: each job signed over its data, with its bits as participants. -/
def proveAggregationJobs (prove : AggregateProver) (jobs : List AggregationJob) :
    Except String (List SignedAggregatedAttestation) :=
  jobs.mapM fun job => do
    let proof ← prove job.childWires job.rawXmss job.dataRoot job.data.slot
    pure ⟨job.data, ⟨job.bits, proof⟩⟩

/-- `next_new_payloads`: each aggregate under the key of every participant. -/
def nextNewPayloads (signedAttestations : List SignedAggregatedAttestation) :
    AssocMap SignatureKey (List PayloadProof) :=
  signedAttestations.foldl (fun next signedAttestation =>
      let dataRoot := T.dataRoot signedAttestation.data
      signedAttestation.proof.toValidatorIndices.foldl (fun next validatorId =>
          let key : SignatureKey := ⟨validatorId, dataRoot⟩
          next.insert key (next.getD key [] ++ [signedAttestation.proof]))
        next)
    AssocMap.empty

/-- One key of `aggregate_apply`: the proofs not yet stored appended to the key's new
payloads. -/
def Store.addNewProofs (s : Store) (key : SignatureKey) (proofs : List PayloadProof) : Store :=
  let existing := proofs.foldl (fun existing proof =>
      if proof ∈ existing then existing else existing ++ [proof])
    (s.latestNewAggregatedPayloads.getD key [])
  { s with latestNewAggregatedPayloads := s.latestNewAggregatedPayloads.insert key existing }

/-- `Store::aggregate_apply`. -/
def aggregateApply (signedAttestations : List SignedAggregatedAttestation) : StoreM Unit :=
  modify fun s =>
    let aggregatedDataRoots := signedAttestations.map fun a => T.dataRoot a.data
    let s := (nextNewPayloads T signedAttestations).entries.foldl
      (fun s (key, proofs) => s.addNewProofs key proofs) s
    { s with
      attestationSignatures :=
        s.attestationSignatures.retain fun key _ => key.dataRoot ∉ aggregatedDataRoots }

end Ream.ForkChoice
