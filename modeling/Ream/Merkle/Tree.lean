import Ream.Beacon.State

/-!
# Merkle trees and single branches

`merkle_tree`, `generate_proof`, `get_root_from_merkle_branch` and `is_valid_merkle_branch`
(`crates/crypto/merkle/src/lib.rs`) over a parameter `hash_concat`. Shifts mask their amount to
six bits as the release build does; an out-of-range index is an error.
-/

namespace Ream.Merkle

open Ream.Consensus Ream.Beacon

/-- `get_generalized_index_bit`: `(index & (1 << position)) > 0`. -/
def getGeneralizedIndexBit (index position : Nat) : Bool :=
  decide (index &&& 1 <<< (position % 64) > 0)

/-- `generalized_index_child`: `generalized_index * 2 + right_side as u64`. -/
def generalizedIndexChild (generalizedIndex : Nat) (rightSide : Bool) : Nat :=
  (generalizedIndex * 2 + rightSide.toNat) % 2 ^ 64

variable (hashConcat : B256 → B256 → B256)

def merkleTree (leaves : List B256) (depth : Nat) : Except String (List B256) :=
  let numOfLeaves := leaves.length
  let bottomLength := 1 <<< (depth % 64)
  if numOfLeaves ≤ bottomLength then
    let tree := List.replicate bottomLength B256.ZERO ++ leaves ++
      List.replicate (bottomLength - numOfLeaves) B256.ZERO
    -- `for i in (1..bottom_length).rev()`
    (List.range' 1 (bottomLength - 1)).reverse.foldlM (fun tree i => do
      let left ← vecIndex tree (i * 2)
      let right ← vecIndex tree (i * 2 + 1)
      vecSet tree i (hashConcat left right)) tree
  else .error "Number of leaves is greater than the bottom length (depth too small)"

/-- The `while current_depth > 0` loop of `generate_proof`, on the remaining depth. -/
def generateProofLoop (tree : List B256) (index : Nat) :
    Nat → Nat → List B256 → Except String (List B256)
  | 0, _, proof => .ok proof
  | currentDepth + 1, currentIndex, proof =>
    let leftChildIndex := generalizedIndexChild currentIndex false
    let rightChildIndex := generalizedIndexChild currentIndex true
    if getGeneralizedIndexBit index currentDepth then do
      let node ← vecIndex tree leftChildIndex
      generateProofLoop tree index currentDepth rightChildIndex (proof ++ [node])
    else do
      let node ← vecIndex tree rightChildIndex
      generateProofLoop tree index currentDepth leftChildIndex (proof ++ [node])

def generateProof (tree : List B256) (index depth : Nat) : Except String (List B256) :=
  let bottomLength := 1 <<< (depth % 64)
  if index < bottomLength then do
    let proof ← generateProofLoop tree index depth 1 []
    pure proof.reverse
  else .error "Index out of bounds"

def getRootFromMerkleBranch (leaf : B256) (branch : List B256) (depth index : Nat) :
    Except String B256 :=
  (List.range depth).foldlM (fun value i => do
    let sibling ← vecIndex branch i
    pure (if getGeneralizedIndexBit index i then hashConcat sibling value
      else hashConcat value sibling)) leaf

def isValidMerkleBranch (leaf : B256) (branch : List B256) (depth index : Nat) (root : B256) :
    Except String Bool :=
  if branch.length ≠ depth then .ok false
  else do
    let computed ← getRootFromMerkleBranch hashConcat leaf branch depth index
    pure (root == computed)

end Ream.Merkle
