import Ream.Ssz.Containers

/-!
# The Lean chain's data

Checkpoints, attestations, blocks, headers and `LeanState` with their SSZ bounds. Tree hashing is
a parameter `TreeHash` that fixes only that a container's root merkleizes its field roots.
-/

namespace Ream.Consensus

open Ssz

/-- A 32-byte root, as an unsigned number. -/
abbrev B256 := Fin (2 ^ 256)

/-- The bound of a root is positive: one named instance that every root numeral elaborates
against, rather than a fresh proof of it in each definition. -/
instance B256.instNeZeroBound : NeZero (2 ^ 256 : Nat) := Nat.instNeZeroHPow

/-- Root comparison is lawful; the membership tests of the model on lists of roots use it. -/
instance B256.instLawfulBEq : LawfulBEq B256 := inferInstance

def B256.ZERO : B256 := 0

/-- The `{:?}` rendering of a root: `0x` and its 64 hexadecimal digits, most significant first. -/
def B256.debug (root : B256) : String :=
  "0x" ++ String.ofList ((List.range 64).map fun k => Nat.digitChar (root.val / 16 ^ (63 - k) % 16))

/-- `MAX_ATTESTATIONS_DATA`: distinct attestation data a block may carry. -/
def MAX_ATTESTATIONS_DATA : Nat := 8

/-- `MAX_HISTORICAL_BLOCK_HASHES`. -/
def MAX_HISTORICAL_BLOCK_HASHES : Nat := 262144

/-- `VALIDATOR_REGISTRY_LIMIT`. -/
def VALIDATOR_REGISTRY_LIMIT : Nat := 4096

/-- The bound of `justifications_validators`, `U1073741824`. -/
def JUSTIFICATION_VOTES_LIMIT : Nat := 1073741824

structure Checkpoint where
  root : B256
  slot : Nat
  deriving DecidableEq, Repr

/-- `Checkpoint::default()`. -/
def Checkpoint.default : Checkpoint := ⟨B256.ZERO, 0⟩

structure AttestationData where
  slot : Nat
  head : Checkpoint
  target : Checkpoint
  source : Checkpoint
  deriving DecidableEq, Repr

structure AggregatedAttestation where
  aggregationBits : BitList VALIDATOR_REGISTRY_LIMIT
  message : AttestationData
  deriving DecidableEq, Repr

namespace AggregatedAttestation

def target (a : AggregatedAttestation) : Checkpoint := a.message.target

def source (a : AggregatedAttestation) : Checkpoint := a.message.source

def head (a : AggregatedAttestation) : Checkpoint := a.message.head

end AggregatedAttestation

structure BlockBody where
  attestations : VariableList AggregatedAttestation VALIDATOR_REGISTRY_LIMIT
  deriving DecidableEq, Repr

structure Block where
  slot : Nat
  proposerIndex : Nat
  parentRoot : B256
  stateRoot : B256
  body : BlockBody
  deriving DecidableEq, Repr

structure BlockHeader where
  slot : Nat
  proposerIndex : Nat
  parentRoot : B256
  stateRoot : B256
  bodyRoot : B256
  deriving DecidableEq, Repr

structure Config where
  genesisTime : Nat
  deriving DecidableEq, Repr

/-- An XMSS public key, as its bytes. -/
abbrev PublicKey := List UInt8

structure Validator where
  attestationPublicKey : PublicKey
  proposalPublicKey : PublicKey
  index : Nat
  deriving DecidableEq, Repr

structure LeanState where
  config : Config
  slot : Nat
  latestBlockHeader : BlockHeader
  latestJustified : Checkpoint
  latestFinalized : Checkpoint
  historicalBlockHashes : VariableList B256 MAX_HISTORICAL_BLOCK_HASHES
  justifiedSlots : BitList MAX_HISTORICAL_BLOCK_HASHES
  validators : VariableList Validator VALIDATOR_REGISTRY_LIMIT
  justificationsRoots : VariableList B256 MAX_HISTORICAL_BLOCK_HASHES
  justificationsValidators : BitList JUSTIFICATION_VOTES_LIMIT
  deriving DecidableEq, Repr

/-- SSZ tree hashing, supplied by the `tree_hash` crate. -/
structure TreeHash where
  /-- The root of a container from the roots of its fields, in field order. -/
  merkleize : List B256 → B256
  /-- The root of a `u64` field. -/
  u64Root : Nat → B256
  bodyRoot : BlockBody → B256
  dataRoot : AttestationData → B256
  stateRoot : LeanState → B256

variable (T : TreeHash)

def BlockHeader.treeHashRoot (h : BlockHeader) : B256 :=
  T.merkleize [T.u64Root h.slot, T.u64Root h.proposerIndex, h.parentRoot, h.stateRoot,
    h.bodyRoot]

def Block.treeHashRoot (b : Block) : B256 :=
  T.merkleize [T.u64Root b.slot, T.u64Root b.proposerIndex, b.parentRoot, b.stateRoot,
    T.bodyRoot b.body]

/-- `From<Block> for BlockHeader`. -/
def BlockHeader.ofBlock (b : Block) : BlockHeader :=
  { slot := b.slot, proposerIndex := b.proposerIndex, parentRoot := b.parentRoot,
    stateRoot := b.stateRoot, bodyRoot := T.bodyRoot b.body }

theorem treeHashRoot_ofBlock (b : Block) :
    (BlockHeader.ofBlock T b).treeHashRoot T = b.treeHashRoot T := rfl

/-- `is_proposer`: round-robin over the validator count. -/
def isProposer (validatorIndex slot validatorCount : Nat) : Bool :=
  slot % validatorCount == validatorIndex

/-- `LeanState::generate_genesis`. The registry conversion is an `expect`: past the bound
the call panics, which is `none` here. -/
def generateGenesis (genesisTime : Nat) (validators : Option (List Validator)) :
    Option LeanState :=
  match (VariableList.new (validators.getD []) : Except Error _) with
  | .error _ => none
  | .ok registry => some
    { config := ⟨genesisTime⟩
      slot := 0
      latestBlockHeader :=
        { slot := 0, proposerIndex := 0, parentRoot := B256.ZERO, stateRoot := B256.ZERO,
          bodyRoot := T.bodyRoot ⟨VariableList.empty⟩ }
      latestJustified := Checkpoint.default
      latestFinalized := Checkpoint.default
      historicalBlockHashes := VariableList.empty
      justifiedSlots := ⟨[], Nat.zero_le _⟩
      validators := registry
      justificationsRoots := VariableList.empty
      justificationsValidators := ⟨[], Nat.zero_le _⟩ }

end Ream.Consensus
