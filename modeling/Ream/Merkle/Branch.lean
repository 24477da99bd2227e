import Ream.Merkle.Tree
import Ream.Lib.MerkleHeap
import Ream.Lib.Loop

/-!
# A branch of a built tree verifies

`generate_proof` reads the siblings of a leaf's path off the table `merkle_tree` builds, and
`get_root_from_merkle_branch` climbs them to `tree[1]`; a proof that verifies another leaf value
gives a collision of `hash_concat`. Depths are below `64`.
-/

namespace Ream.Merkle

open Ream.Consensus Ream.Beacon

theorem oneShiftLeft_eq {n : Nat} (h : n < 64) : 1 <<< (n % 64) = 2 ^ n := by
  rw [Nat.mod_eq_of_lt h, Nat.one_shiftLeft]

theorem getGeneralizedIndexBit_eq {index position : Nat} (h : position < 64) :
    getGeneralizedIndexBit index position = index.testBit position := by
  rw [getGeneralizedIndexBit, oneShiftLeft_eq h, Nat.and_two_pow]
  cases index.testBit position <;> simp

theorem generalizedIndexChild_eq {g : Nat} (rightSide : Bool) (h : g < 2 ^ 63) :
    generalizedIndexChild g rightSide = 2 * g + rightSide.toNat := by
  have hb : rightSide.toNat ≤ 1 := Bool.toNat_le rightSide
  rw [generalizedIndexChild, Nat.mod_eq_of_lt (by omega)]
  omega

/-- The node at heap position `j` of a tree vector; positions past the end read as zero. -/
def treeNode (tree : List B256) (j : Nat) : B256 := tree.getD j B256.ZERO

theorem getD_padded (leaves : List B256) {bottomLength : Nat} (k : Nat) :
    (List.replicate bottomLength B256.ZERO ++ leaves ++
        List.replicate (bottomLength - leaves.length) B256.ZERO).getD (bottomLength + k)
      B256.ZERO = leaves.getD k B256.ZERO := by
  rw [List.append_assoc, List.getD_append_right _ _ _ _ (by simp), List.length_replicate,
    Nat.add_sub_cancel_left]
  by_cases hk : k < leaves.length
  · exact List.getD_append _ _ _ k hk
  · rw [List.getD_append_right _ _ _ _ (by omega), List.getD_eq_default leaves _ (by omega)]
    by_cases hpad : k - leaves.length < bottomLength - leaves.length
    · exact List.getD_replicate _ hpad
    · exact List.getD_eq_default _ _ (by rw [List.length_replicate]; omega)

variable {hashConcat : B256 → B256 → B256}

variable (hashConcat) in
/-- `tree` is a tree of depth `depth` over `leaves`, as `merkle_tree` lays it out. -/
structure TreeOf (leaves : List B256) (depth : Nat) (tree : List B256) : Prop where
  length_eq : tree.length = 2 ^ (depth + 1)
  isTree : MerkleHeap.IsTree hashConcat depth (treeNode tree)
  leaf_eq : ∀ k, treeNode tree (2 ^ depth + k) = leaves.getD k B256.ZERO

/-! ## `merkle_tree` -/

theorem merkleTree_ok {leaves : List B256} {depth : Nat} (hd : depth < 64)
    (hl : leaves.length ≤ 2 ^ depth) :
    ∃ tree, merkleTree hashConcat leaves depth = .ok tree ∧
      TreeOf hashConcat leaves depth tree := by
  have hlen : (List.replicate (2 ^ depth) B256.ZERO ++ leaves ++
      List.replicate (2 ^ depth - leaves.length) B256.ZERO).length = 2 ^ (depth + 1) := by
    simp only [List.length_append, List.length_replicate, Nat.pow_succ]
    omega
  unfold merkleTree
  rw [oneShiftLeft_eq hd, if_pos hl]
  dsimp only
  generalize htree : List.replicate (2 ^ depth) B256.ZERO ++ leaves ++
    List.replicate (2 ^ depth - leaves.length) B256.ZERO = tree at hlen
  have hfill := @MerkleHeap.fill_isTree _ hashConcat B256.ZERO depth tree
    (by rw [hlen, Nat.pow_succ]; omega)
  refine ⟨_, @Loop.foldlM_eq_ok _ _ _ _ (MerkleHeap.fillStep hashConcat B256.ZERO)
    (fun t : List B256 => t.length = 2 ^ (depth + 1)) _ (fun t i hi ht => ?_) _ hlen,
    ⟨?_, hfill.1, fun k => ?_⟩⟩
  · rw [List.mem_reverse, List.mem_range'_1] at hi
    have hpow : 2 ^ (depth + 1) = 2 * 2 ^ depth := Nat.pow_succ'
    refine ⟨?_, by simp [MerkleHeap.fillStep, ht]⟩
    rw [vecIndex_of_lt B256.ZERO (by omega), vecIndex_of_lt B256.ZERO (by omega)]
    show vecSet t i _ = _
    rw [vecSet_of_lt _ (by omega), MerkleHeap.fillStep, Nat.mul_comm i 2]
  · rw [← hlen]
    exact MerkleHeap.length_fill depth tree
  · rw [treeNode, ← MerkleHeap.fill, hfill.2 _ (Nat.le_add_right _ k), ← htree]
    exact getD_padded leaves k

theorem TreeOf.vecIndex_one {leaves tree : List B256} {depth : Nat}
    (h : TreeOf hashConcat leaves depth tree) : vecIndex tree 1 = .ok (treeNode tree 1) := by
  refine vecIndex_of_lt B256.ZERO ?_
  rw [h.length_eq]
  exact Nat.one_lt_two_pow (Nat.succ_ne_zero depth)

theorem TreeOf.treeNode_one {leaves tree : List B256} {depth : Nat}
    (h : TreeOf hashConcat leaves depth tree) :
    treeNode tree 1 = MerkleHeap.root hashConcat depth fun k => leaves.getD k B256.ZERO := by
  rw [h.isTree.node_one]
  congr 1
  funext k
  exact h.leaf_eq k

theorem TreeOf.root_eq {leaves tree : List B256} {depth : Nat}
    (h : TreeOf hashConcat leaves depth tree) :
    vecIndex tree 1 = .ok (MerkleHeap.root hashConcat depth fun k => leaves.getD k B256.ZERO) := by
  rw [h.vecIndex_one, h.treeNode_one]

/-! ## `generate_proof` -/

/-- From the path node at remaining depth `currentDepth`, the walk pushes the siblings of the
path nodes below it, the highest first. -/
theorem TreeOf.generateProofLoop_eq {leaves tree : List B256} {depth index : Nat}
    (h : TreeOf hashConcat leaves depth tree) (hd : depth < 64) (hi : index < 2 ^ depth) :
    ∀ currentDepth proof, currentDepth ≤ depth →
      generateProofLoop tree index currentDepth (MerkleHeap.pathNode depth index currentDepth)
          proof =
        .ok (proof ++ ((List.range currentDepth).map fun t =>
          treeNode tree (MerkleHeap.siblingNode depth index t)).reverse)
  | 0, proof, _ => by simp [generateProofLoop]
  | currentDepth + 1, proof, hle => by
    obtain ⟨hlo, hhi⟩ := MerkleHeap.pathNode_bounds hi (Nat.lt_of_succ_le hle)
    have hsmall : MerkleHeap.pathNode depth index (currentDepth + 1) < 2 ^ 63 :=
      Nat.lt_of_lt_of_le hhi (Nat.pow_le_pow_right Nat.two_pos (by omega))
    have hlen : 2 * MerkleHeap.pathNode depth index (currentDepth + 1) + 1 < tree.length := by
      rw [h.length_eq, Nat.pow_succ]
      omega
    have hrest : (List.range (currentDepth + 1)).map (fun t =>
        treeNode tree (MerkleHeap.siblingNode depth index t)) =
        (List.range currentDepth).map (fun t =>
          treeNode tree (MerkleHeap.siblingNode depth index t)) ++
        [treeNode tree (MerkleHeap.siblingNode depth index currentDepth)] := by
      rw [List.range_succ, List.map_append, List.map_singleton]
    rw [hrest, List.reverse_append, List.reverse_singleton, ← List.append_assoc]
    unfold generateProofLoop
    rw [getGeneralizedIndexBit_eq (by omega), generalizedIndexChild_eq _ hsmall,
      generalizedIndexChild_eq _ hsmall]
    cases hb : index.testBit currentDepth with
    | true =>
      obtain ⟨hsib, hpath⟩ := MerkleHeap.children_of_testBit (Nat.lt_of_succ_le hle) hb
      simp only [if_true, Bool.toNat_false, Bool.toNat_true, Nat.add_zero]
      rw [vecIndex_of_lt B256.ZERO (by omega)]
      show generateProofLoop tree index currentDepth _ (proof ++ [treeNode tree _]) = _
      rw [← hpath, ← hsib]
      exact h.generateProofLoop_eq hd hi currentDepth _ (by omega)
    | false =>
      obtain ⟨hpath, hsib⟩ := MerkleHeap.children_of_not_testBit (Nat.lt_of_succ_le hle) hb
      simp only [Bool.false_eq_true, if_false, Bool.toNat_false, Bool.toNat_true, Nat.add_zero]
      rw [vecIndex_of_lt B256.ZERO hlen]
      show generateProofLoop tree index currentDepth _ (proof ++ [treeNode tree _]) = _
      rw [← hsib, ← hpath]
      exact h.generateProofLoop_eq hd hi currentDepth _ (by omega)

theorem TreeOf.generateProof_ok {leaves tree : List B256} {depth index : Nat}
    (h : TreeOf hashConcat leaves depth tree) (hd : depth < 64) (hi : index < 2 ^ depth) :
    generateProof tree index depth = .ok (MerkleHeap.branch depth (treeNode tree) index) := by
  have hloop := h.generateProofLoop_eq hd hi depth [] le_rfl
  rw [MerkleHeap.pathNode_self hi, List.nil_append] at hloop
  unfold generateProof
  rw [oneShiftLeft_eq hd, if_pos hi, hloop]
  show Except.ok (List.reverse _).reverse = _
  rw [List.reverse_reverse]
  rfl

/-! ## Verifying a branch -/

theorem foldlM_range'_climb {index : Nat} {branch : List B256}
    {f : B256 → Nat → Except String B256}
    (hf : ∀ value i, i < branch.length → f value i =
      .ok (if index.testBit i then hashConcat (branch.getD i B256.ZERO) value
        else hashConcat value (branch.getD i B256.ZERO))) :
    ∀ (rest : List B256) (level : Nat) (value : B256), branch.drop level = rest →
      (List.range' level rest.length).foldlM f value =
        .ok (MerkleHeap.climb hashConcat index level value rest)
  | [], _, _, _ => rfl
  | sibling :: rest, level, value, hdrop => by
    have hlt : level < branch.length := by
      have := congrArg List.length hdrop
      simp only [List.length_drop, List.length_cons] at this
      omega
    have hsibling : branch.getD level B256.ZERO = sibling := by
      rw [List.drop_eq_getElem_cons hlt, List.cons.injEq] at hdrop
      rw [List.getD_eq_getElem _ _ hlt, hdrop.1]
    have hnext : branch.drop (level + 1) = rest := by
      rw [List.drop_eq_getElem_cons hlt, List.cons.injEq] at hdrop
      exact hdrop.2
    rw [List.length_cons, List.range'_succ, List.foldlM_cons, hf value level hlt, hsibling]
    exact foldlM_range'_climb hf rest (level + 1) _ hnext

theorem getRootFromMerkleBranch_eq {leaf : B256} {branch : List B256} {depth : Nat}
    (index : Nat) (hl : branch.length = depth) (hd : depth ≤ 64) :
    getRootFromMerkleBranch hashConcat leaf branch depth index =
      .ok (MerkleHeap.climb hashConcat index 0 leaf branch) := by
  unfold getRootFromMerkleBranch
  rw [List.range_eq_range', ← hl]
  refine foldlM_range'_climb (fun value i hi => ?_) branch 0 leaf rfl
  rw [vecIndex_of_lt B256.ZERO hi, getGeneralizedIndexBit_eq (by omega)]
  rfl

theorem isValidMerkleBranch_eq {leaf root : B256} {branch : List B256} {depth : Nat}
    (index : Nat) (hl : branch.length = depth) (hd : depth ≤ 64) :
    isValidMerkleBranch hashConcat leaf branch depth index root =
      .ok (root == MerkleHeap.climb hashConcat index 0 leaf branch) := by
  unfold isValidMerkleBranch
  rw [if_neg (not_not.mpr hl), getRootFromMerkleBranch_eq index hl hd]
  rfl

theorem TreeOf.climb_branch {leaves tree : List B256} {depth index : Nat}
    (h : TreeOf hashConcat leaves depth tree) (hi : index < 2 ^ depth) :
    MerkleHeap.climb hashConcat index 0 (leaves.getD index B256.ZERO)
      (MerkleHeap.branch depth (treeNode tree) index) = treeNode tree 1 := by
  rw [← h.leaf_eq index]
  exact h.isTree.climb_branch hi

/-- What building a tree and reading a leaf's branch off it give: the branch has one node a
level and climbs from the leaf to the padded root of the leaves. -/
theorem merkleProof_ok {leaves : List B256} {depth index : Nat} (hd : depth < 64)
    (hl : leaves.length ≤ 2 ^ depth) (hi : index < 2 ^ depth) :
    ∃ tree proof, merkleTree hashConcat leaves depth = .ok tree ∧
      generateProof tree index depth = .ok proof ∧ proof.length = depth ∧
      MerkleHeap.climb hashConcat index 0 (leaves.getD index B256.ZERO) proof =
        MerkleHeap.root hashConcat depth fun k => leaves.getD k B256.ZERO := by
  obtain ⟨tree, htree, hof⟩ := @merkleTree_ok hashConcat _ _ hd hl
  refine ⟨tree, _, htree, hof.generateProof_ok hd hi, MerkleHeap.length_branch .., ?_⟩
  rw [hof.climb_branch hi, hof.treeNode_one]

/-! ## The round trip -/

/-- The proof `generate_proof` gives for a leaf of `merkle_tree` climbs back to `tree[1]`, so
`is_valid_merkle_branch` accepts it; a proof that it accepts for any other leaf value shows a
collision of `hash_concat`. -/
theorem branch_round_trip (hashConcat : B256 → B256 → B256) {leaves : List B256}
    {depth index : Nat} (hd : depth < 64) (hl : leaves.length ≤ 2 ^ depth)
    (hi : index < 2 ^ depth) :
    ∃ tree proof root, merkleTree hashConcat leaves depth = .ok tree ∧
      generateProof tree index depth = .ok proof ∧ vecIndex tree 1 = .ok root ∧
      isValidMerkleBranch hashConcat (leaves.getD index B256.ZERO) proof depth index root =
        .ok true ∧
      getRootFromMerkleBranch hashConcat (leaves.getD index B256.ZERO) proof depth index =
        .ok root ∧
      ∀ leaf, isValidMerkleBranch hashConcat leaf proof depth index root = .ok true →
        leaf = leaves.getD index B256.ZERO ∨ MerkleHeap.HasCollision hashConcat := by
  obtain ⟨tree, htree, hof⟩ := @merkleTree_ok hashConcat _ _ hd hl
  have hlen := MerkleHeap.length_branch depth (treeNode tree) index
  have hclimb := hof.climb_branch hi
  refine ⟨tree, _, _, htree, hof.generateProof_ok hd hi, hof.vecIndex_one, ?_, ?_,
    fun leaf hvalid => ?_⟩
  · rw [isValidMerkleBranch_eq index hlen (by omega), hclimb, beq_self_eq_true]
  · rw [getRootFromMerkleBranch_eq index hlen (by omega), hclimb]
  · rw [isValidMerkleBranch_eq index hlen (by omega), Except.ok.injEq, beq_iff_eq] at hvalid
    exact MerkleHeap.climb_inj index 0 _ _ _ (hvalid.symm.trans hclimb.symm)

/-- A tree of depth one over one leaf, with addition as the hash. -/
theorem branch_round_trip_depth_one :
    1 < 64 ∧ [(5 : B256)].length ≤ 2 ^ 1 ∧ 1 < 2 ^ 1 ∧
    ∃ tree proof root, merkleTree (· + ·) [5] 1 = .ok tree ∧
      generateProof tree 1 1 = .ok proof ∧ vecIndex tree 1 = .ok root ∧
      isValidMerkleBranch (· + ·) ([5].getD 1 B256.ZERO) proof 1 1 root = .ok true ∧
      getRootFromMerkleBranch (· + ·) ([5].getD 1 B256.ZERO) proof 1 1 = .ok root ∧
      ∀ leaf, isValidMerkleBranch (· + ·) leaf proof 1 1 root = .ok true →
        leaf = [(5 : B256)].getD 1 B256.ZERO ∨ MerkleHeap.HasCollision (· + · : B256 → B256 → B256) :=
  ⟨by decide, by decide, by decide,
    branch_round_trip (· + ·) (by decide) (by decide) (by decide)⟩

end Ream.Merkle
