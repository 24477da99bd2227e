import Ream.Merkle.Branch
import Ream.Lib.AssocMap

/-!
# Multiproofs

`Multiproof::generate`, `calculate_root` and `verify` (`crates/crypto/merkle/src/multiproof.rs`).
`calculate_root` checks only the number of proof nodes, not their keys, so a proof node at an
ancestor of a leaf makes the root independent of that leaf.
-/

namespace Ream.Merkle

open Ream.Consensus Ream.Beacon

/-- `generalized_index_sibling`: `generalized_index ^ 1`. -/
def generalizedIndexSibling (generalizedIndex : Nat) : Nat := generalizedIndex ^^^ 1

/-- `generalized_index_parent`. -/
def generalizedIndexParent (generalizedIndex : Nat) : Nat := generalizedIndex / 2

/-- `generalized_index_from_leaf_index`: `leaf_index + (1 << depth)`. -/
def generalizedIndexFromLeafIndex (leafIndex depth : Nat) : Nat :=
  (leafIndex + 1 <<< (depth % 64)) % 2 ^ 64

theorem sibling_parent_lt {focus : Nat} (h : 1 < focus) :
    generalizedIndexSibling (generalizedIndexParent focus) < focus := by
  unfold generalizedIndexSibling generalizedIndexParent
  rcases Nat.even_or_odd (focus / 2) with heven | hodd
  · rw [Nat.xor_one_of_even heven]
    have hne : focus / 2 ≠ 1 := fun h1 => by rw [h1] at heven; exact absurd heven (by decide)
    omega
  · rw [Nat.xor_one_of_odd hodd]
    omega

/-- The foci the loop of `get_branch_indices` moves to from `focus`, while it is above `1`. -/
def branchFoci (focus : Nat) : List Nat :=
  if 1 < focus then
    generalizedIndexSibling (generalizedIndexParent focus) ::
      branchFoci (generalizedIndexSibling (generalizedIndexParent focus))
  else []
termination_by focus
decreasing_by exact sibling_parent_lt ‹_›

/-- The foci the loop of `get_path_indices` moves to from `focus`, while it is above `1`. -/
def pathFoci (focus : Nat) : List Nat :=
  if 1 < focus then
    generalizedIndexParent focus :: pathFoci (generalizedIndexParent focus)
  else []
termination_by focus
decreasing_by exact Nat.div_lt_self (by omega) (by decide)

/-- `get_branch_indices`: the sibling of every node from `generalized_index` up to a child of
the root. The loop pushes one focus past the last one, which `pop` removes. -/
def getBranchIndices (generalizedIndex : Nat) : List Nat :=
  let focus := generalizedIndexSibling generalizedIndex
  (focus :: branchFoci focus).dropLast

/-- `get_path_indices`: the nodes from `generalized_index` up to a child of the root. -/
def getPathIndices (generalizedIndex : Nat) : List Nat :=
  (generalizedIndex :: pathFoci generalizedIndex).dropLast

/-- `get_helper_indices`: the branch nodes of all the indices that are on none of their paths,
highest first. -/
def getHelperIndices (generalizedIndices : List Nat) : List Nat :=
  let allHelperIndices := (generalizedIndices.flatMap getBranchIndices).dedup
  let allPathIndices := generalizedIndices.flatMap getPathIndices
  (allHelperIndices.filter fun i => i ∉ allPathIndices).insertionSort fun a b => b ≤ a

structure Multiproof where
  /-- The leaves to be verified, keyed by their generalized indices. -/
  leaves : AssocMap Nat B256
  /-- The proof nodes, keyed by their generalized indices. -/
  proofs : AssocMap Nat B256

namespace Multiproof

/-- The `(index, tree[index])` pairs of `indices`, each read panicking out of range. -/
def readNodes (tree : List B256) (indices : List Nat) : Except String (List (Nat × B256)) :=
  indices.mapM fun generalizedIndex => do
    let node ← vecIndex tree generalizedIndex
    pure (generalizedIndex, node)

def generate (tree : List B256) (indices : List Nat) (depth : Nat) : Except String Multiproof :=
  let bottomLength := 1 <<< (depth % 64)
  if indices.isEmpty then .error "Indices cannot be empty"
  else if ¬ indices.all (· < bottomLength) then .error "Index out of bounds"
  else do
    let generalizedIndices := indices.map (generalizedIndexFromLeafIndex · depth)
    let helperIndices := getHelperIndices generalizedIndices
    let leaves ← readNodes tree generalizedIndices
    let proofs ← readNodes tree helperIndices
    pure ⟨AssocMap.ofList leaves, AssocMap.ofList proofs⟩

variable (hashConcat : B256 → B256 → B256)

/-- One pass of the `while position < keys.len()` loop of `calculate_root`: a present key whose
sibling is present and whose parent is missing gets its parent, which joins the keys. -/
def calculateRootStep (objects : AssocMap Nat B256) (keys : List Nat) (key : Nat) :
    Except String (AssocMap Nat B256 × List Nat) :=
  let parentIndex := generalizedIndexParent key
  let keyPresent := objects.contains key
  let siblingPresent := objects.contains (generalizedIndexSibling key)
  let parentMissing := !objects.contains parentIndex
  if keyPresent && siblingPresent && parentMissing then do
    let rightIndex := key ||| 1
    let leftIndex := generalizedIndexSibling rightIndex
    let leftInput ← match objects.get? leftIndex with
      | some node => .ok node
      | none => .error s!"Missing left node at index {leftIndex}"
    let rightInput ← match objects.get? rightIndex with
      | some node => .ok node
      | none => .error s!"Missing right node at index {rightIndex}"
    pure (objects.insert parentIndex (hashConcat leftInput rightInput), keys ++ [parentIndex])
  else pure (objects, keys)

/-- The loop itself, with `fuel` passes. Each pass moves on one key or adds a missing parent of a
key, which is below the largest key, so the number of keys plus the largest key, plus one,
bounds the passes; `calculateRoot` gives that much fuel. -/
def calculateRootLoop : Nat → AssocMap Nat B256 → List Nat → Nat →
    Except String (AssocMap Nat B256)
  | 0, _, _, _ => .error "calculate_root: the loop ran past its bound"
  | fuel + 1, objects, keys, position =>
    match keys[position]? with
    | none => .ok objects
    | some key => do
      let (objects, keys) ← calculateRootStep hashConcat objects keys key
      calculateRootLoop fuel objects keys (position + 1)

def calculateRoot (m : Multiproof) : Except String B256 :=
  let leafIndices := m.leaves.keys
  let helperIndices := getHelperIndices leafIndices
  if m.proofs.size = helperIndices.length then do
    -- the leaves, then the proof nodes, a proof node replacing a leaf of the same key
    let objects := AssocMap.ofList (m.leaves.entries ++ m.proofs.entries)
    let keys := objects.keys.insertionSort fun a b => b ≤ a
    let objects ← calculateRootLoop hashConcat
      (keys.length + keys.foldl max 0 + 2) objects keys 0
    match objects.get? 1 with
    | some root => .ok root
    | none => .error "Missing root node at index 1"
  else .error (s!"Invalid proof: proof length ({m.proofs.size}) does not match " ++
    s!"helper indices length ({helperIndices.length})")

def verify (m : Multiproof) (expectedRoot : B256) : Except String Unit := do
  let calculatedRoot ← m.calculateRoot hashConcat
  if calculatedRoot == expectedRoot then pure ()
  else .error (s!"Invalid proof: expected root {expectedRoot.debug}, " ++
    s!"but got {calculatedRoot.debug}")

/-- A multiproof for leaf `4` of a tree of depth two that carries the leaf value `1` and, as its
two proof nodes, the tree's nodes at `2`, the leaf's parent, and at `3`. -/
def forgedProof (tree : List B256) : Multiproof where
  leaves := AssocMap.ofList [(4, 1)]
  proofs := AssocMap.ofList [(2, treeNode tree 2), (3, treeNode tree 3)]

/-- The forged multiproof verifies against the root of the all-zero tree of depth two, for
every hash function, although the leaf it carries is not the tree's leaf `4`: the proof node
at `2` stands in for the leaf's subtree, and the count of proof nodes matches the two helper
indices `5` and `3` of leaf `4`. -/
theorem multiproof_accepts_unchecked_leaf (hashConcat : B256 → B256 → B256) :
    ∃ tree, merkleTree hashConcat [] 2 = .ok tree ∧
      (forgedProof tree).verify hashConcat (treeNode tree 1) = .ok () ∧
      (forgedProof tree).leaves.get? 4 = some 1 ∧ treeNode tree 4 ≠ 1 := by
  obtain ⟨tree, htree, hof⟩ := @merkleTree_ok hashConcat [] 2 (by decide) (by decide)
  have hhelpers : getHelperIndices [4] = [5, 3] := by
    simp [getHelperIndices, getBranchIndices, getPathIndices, branchFoci, pathFoci,
      generalizedIndexSibling, generalizedIndexParent]
  have hroot : (forgedProof tree).calculateRoot hashConcat =
      .ok (hashConcat (treeNode tree 2) (treeNode tree 3)) := by
    have hkeys : (forgedProof tree).leaves.keys = [4] := rfl
    have hsorted : (AssocMap.ofList ((forgedProof tree).leaves.entries ++
        (forgedProof tree).proofs.entries)).keys.insertionSort (fun a b => b ≤ a) = [4, 3, 2] :=
      rfl
    unfold calculateRoot
    rw [hkeys]
    dsimp only
    rw [hhelpers, if_pos (show (forgedProof tree).proofs.size = [5, 3].length from rfl), hsorted]
    rfl
  have hone : treeNode tree 1 = hashConcat (treeNode tree 2) (treeNode tree 3) :=
    hof.isTree 1 le_rfl (by decide)
  refine ⟨tree, htree, ?_, rfl, ?_⟩
  · rw [verify, hroot, hone]
    show (if (_ == _) = true then pure () else _) = _
    rw [beq_self_eq_true, if_pos rfl]
    rfl
  · rw [show (4 : Nat) = 2 ^ 2 + 0 from rfl, hof.leaf_eq 0]
    decide

end Multiproof

end Ream.Merkle
