import Ream.Ssz.Containers
import Ream.Lib.AssocMap
import Ream.Consensus.Types
import Ream.Consensus.Slot
import Ream.Consensus.Attestations
import Ream.Consensus.Transition
import Ream.Lib.Loop
import Ream.Lib.Iterate
import Ream.Consensus.AttestationSpec
import Ream.Consensus.Tallies
import Ream.Consensus.VoteSoundness
import Ream.Consensus.TransitionSpec
import Ream.Consensus.Reachable
import Ream.Consensus.Checkpoints
import Ream.Consensus.Representation
import Ream.Consensus.ChainLinkage
import Ream.Lib.StoreM
import Ream.ForkChoice.Store
import Ream.ForkChoice.Head
import Ream.ForkChoice.OnBlock
import Ream.ForkChoice.Operations
import Ream.ForkChoice.Atomicity
import Ream.ForkChoice.Finality
import Ream.ForkChoice.Production
import Ream.ForkChoice.BlockProduction
import Ream.Beacon.State
import Ream.Beacon.Epoch
import Ream.Beacon.Justification
import Ream.Lib.SwapOrNot
import Ream.Lib.Slices
import Ream.Beacon.Committee
import Ream.Beacon.Partition
import Ream.Lib.MerkleHeap
import Ream.Merkle.Tree
import Ream.Merkle.Branch
import Ream.Merkle.Multiproof
import Ream.Beacon.TreeHash
import Ream.Beacon.Sidecar
import Ream.Beacon.Inclusion
import Ream.ForkChoice.Acceptance
import Ream.Lib.GreedyCover
import Ream.ForkChoice.ProofCover
import Ream.ForkChoice.RoundJustification
import Ream.Lib.Ghost
import Ream.ForkChoice.HeadSelection
import Ream.ForkChoice.Aggregation
import Ream.ForkChoice.PoolIntegrity
import Ream.ForkChoice.AttestationTarget
import Ream.Sync.BlockRange
import Ream.Beacon.Registry
import Ream.Beacon.Withdrawals
import Ream.Beacon.Churn
import Ream.Beacon.SyncRewards
import Ream.Beacon.Deposits
import Ream.Network.ReqResp
import Ream.Beacon.ForkChoice.Store
import Ream.Beacon.ForkChoice.Handlers
import Ream.Beacon.ForkChoice.Monotone
import Ream.Beacon.ForkChoice.Head
import Ream.Lib.Writes
import Ream.Beacon.RegistryWrites
import Ream.Beacon.RegistryInvariant
import Ream.Beacon.Rewards
import Ream.Beacon.Operations
import Ream.Beacon.ExitFrame
import Ream.Beacon.ExitQueue
import Ream.Beacon.BlockProcessing
import Ream.Beacon.PendingConsolidations
import Ream.Beacon.Slashings
import Ream.Lib.Newton
import Ream.Beacon.Isqrt
import Ream.Lib.Text
import Ream.Network.Topics
import Ream.Sync.Backfill
import Ream.Sync.BackfillInvariant
import Ream.Beacon.SyncCommitteePool
import Ream.Lib.HeapIndex
import Ream.Merkle.MultiproofSpec
