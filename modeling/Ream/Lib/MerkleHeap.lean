import Mathlib

/-!
# Merkle trees laid out as heaps

`IsTree combine h node`: every inner node of a heap-ordered table combines its children. Each
node is then the root of the leaves below it, a leaf's siblings climb back to node `1`
(`climb_branch`), and `fill` builds such a table (`fill_isTree`).
-/

namespace MerkleHeap

variable {α : Type} (combine : α → α → α)

/-- The root of the perfect tree of height `h` over the leaves `leaf 0, …, leaf (2 ^ h - 1)`. -/
def root : Nat → (Nat → α) → α
  | 0, leaf => leaf 0
  | h + 1, leaf => combine (root h leaf) (root h fun i => leaf (2 ^ h + i))

/-- Every inner node `1 ≤ j < 2 ^ h` of `node` combines its children `2 * j` and `2 * j + 1`. -/
def IsTree (h : Nat) (node : Nat → α) : Prop :=
  ∀ j, 1 ≤ j → j < 2 ^ h → node j = combine (node (2 * j)) (node (2 * j + 1))

/-- The heap position of the node at height `t` above leaf `index`. -/
def pathNode (h index t : Nat) : Nat := 2 ^ (h - t) + index / 2 ^ t

/-- The heap position of the other child of that node's parent. -/
def siblingNode (h index t : Nat) : Nat :=
  if index.testBit t then pathNode h index t - 1 else pathNode h index t + 1

/-- The siblings on the way from leaf `index` up to the root, the lowest first. -/
def branch (h : Nat) (node : Nat → α) (index : Nat) : List α :=
  (List.range h).map fun t => node (siblingNode h index t)

/-- The climb from `value` at height `level`: at each height the next sibling goes on the left
when bit `level` of `index` is set, and on the right otherwise. -/
def climb (index : Nat) : Nat → α → List α → α
  | _, value, [] => value
  | level, value, sibling :: rest =>
    climb index (level + 1)
      (if index.testBit level then combine sibling value else combine value sibling) rest

/-- Two different pairs that `combine` sends to one value. -/
def HasCollision : Prop := ∃ a b c d, (a, b) ≠ (c, d) ∧ combine a b = combine c d

variable {combine}

/-! ## Nodes are roots -/

theorem two_pow_sub_succ {h t : Nat} (ht : t < h) : 2 ^ (h - t) = 2 * 2 ^ (h - (t + 1)) := by
  rw [← Nat.pow_succ']
  congr 1
  omega

/-- Each node of a tree is the root of the leaves below it: the node at height `t` and offset
`p` roots the leaves from `p * 2 ^ t` on. -/
theorem IsTree.node_eq_root {h : Nat} {node : Nat → α} (ht : IsTree combine h node) :
    ∀ t, t ≤ h → ∀ p, p < 2 ^ (h - t) →
      node (2 ^ (h - t) + p) = root combine t fun k => node (2 ^ h + p * 2 ^ t + k)
  | 0, _, p, _ => by simp [root]
  | t + 1, hle, p, hp => by
    have hpow := two_pow_sub_succ (Nat.lt_of_succ_le hle)
    have hbound : 2 ^ (h - (t + 1)) + p < 2 ^ h := by
      have := Nat.pow_le_pow_right Nat.two_pos (Nat.sub_le h (t + 1))
      have := Nat.pow_le_pow_right Nat.two_pos (Nat.sub_le h t)
      omega
    have hone : 1 ≤ 2 ^ (h - (t + 1)) := Nat.one_le_two_pow
    rw [ht _ (by omega) hbound]
    have hl : 2 * (2 ^ (h - (t + 1)) + p) = 2 ^ (h - t) + 2 * p := by omega
    have hr : 2 * (2 ^ (h - (t + 1)) + p) + 1 = 2 ^ (h - t) + (2 * p + 1) := by omega
    rw [hr, hl, ht.node_eq_root t (by omega) (2 * p) (by omega),
      ht.node_eq_root t (by omega) (2 * p + 1) (by omega), root]
    congr 1
    · congr 1
      funext k
      rw [Nat.pow_succ]
      ring_nf
    · congr 1
      funext k
      rw [Nat.pow_succ]
      ring_nf

theorem IsTree.node_one {h : Nat} {node : Nat → α} (ht : IsTree combine h node) :
    node 1 = root combine h fun k => node (2 ^ h + k) := by
  have hroot := ht.node_eq_root h le_rfl 0 (by simp)
  simpa using hroot

/-! ## Branches climb to the root -/

theorem pathNode_zero (h index : Nat) : pathNode h index 0 = 2 ^ h + index := by
  simp [pathNode]

theorem pathNode_self {h index : Nat} (hi : index < 2 ^ h) : pathNode h index h = 1 := by
  simp [pathNode, Nat.div_eq_of_lt hi]

theorem pathNode_eq_child {h index t : Nat} (ht : t < h) :
    pathNode h index t = 2 * pathNode h index (t + 1) + index / 2 ^ t % 2 := by
  have hdiv : index / 2 ^ t / 2 = index / 2 ^ (t + 1) := by
    rw [Nat.div_div_eq_div_mul, Nat.pow_succ]
  have hsplit := Nat.div_add_mod (index / 2 ^ t) 2
  unfold pathNode
  rw [two_pow_sub_succ ht]
  omega

theorem pathNode_bounds {h index t : Nat} (hi : index < 2 ^ h) (ht : t < h) :
    1 ≤ pathNode h index (t + 1) ∧ pathNode h index (t + 1) < 2 ^ h := by
  have hq : index / 2 ^ (t + 1) < 2 ^ (h - (t + 1)) := by
    rw [Nat.div_lt_iff_lt_mul (Nat.two_pow_pos _), ← Nat.pow_add, Nat.sub_add_cancel ht]
    exact hi
  have hle : 2 ^ (h - t) ≤ 2 ^ h := Nat.pow_le_pow_right Nat.two_pos (Nat.sub_le h t)
  have hpow := two_pow_sub_succ ht
  have hone : 1 ≤ 2 ^ (h - (t + 1)) := Nat.one_le_two_pow
  unfold pathNode
  generalize index / 2 ^ (t + 1) = q at hq ⊢
  omega

theorem children_of_testBit {h index t : Nat} (ht : t < h) (hb : index.testBit t = true) :
    siblingNode h index t = 2 * pathNode h index (t + 1) ∧
      pathNode h index t = 2 * pathNode h index (t + 1) + 1 := by
  have hbit : index / 2 ^ t % 2 = 1 := by
    simpa [Nat.testBit_eq_decide_div_mod_eq] using hb
  have hchild : pathNode h index t = 2 * pathNode h index (t + 1) + index / 2 ^ t % 2 :=
    pathNode_eq_child ht
  rw [hbit] at hchild
  rw [siblingNode, if_pos hb, hchild, Nat.add_sub_cancel]
  exact ⟨rfl, rfl⟩

theorem children_of_not_testBit {h index t : Nat} (ht : t < h) (hb : index.testBit t = false) :
    pathNode h index t = 2 * pathNode h index (t + 1) ∧
      siblingNode h index t = 2 * pathNode h index (t + 1) + 1 := by
  have hbit : index / 2 ^ t % 2 = 0 := by
    have hne : ¬ index / 2 ^ t % 2 = 1 := by
      simpa [Nat.testBit_eq_decide_div_mod_eq] using hb
    omega
  have hchild : pathNode h index t = 2 * pathNode h index (t + 1) + index / 2 ^ t % 2 :=
    pathNode_eq_child ht
  rw [hbit, Nat.add_zero] at hchild
  rw [siblingNode, if_neg (by simp [hb]), hchild]
  exact ⟨rfl, rfl⟩

/-- One level of the climb: a node and its sibling, in the order the index bit gives, combine
to the node above them. -/
theorem IsTree.climb_step {h : Nat} {node : Nat → α} (htree : IsTree combine h node)
    {index t : Nat} (hi : index < 2 ^ h) (ht : t < h) :
    (if index.testBit t then combine (node (siblingNode h index t)) (node (pathNode h index t))
      else combine (node (pathNode h index t)) (node (siblingNode h index t))) =
      node (pathNode h index (t + 1)) := by
  obtain ⟨hlo, hhi⟩ := pathNode_bounds hi ht
  rw [htree _ hlo hhi]
  cases hb : index.testBit t with
  | true =>
    obtain ⟨hsib, hpath⟩ := children_of_testBit ht hb
    rw [if_pos rfl, hsib, hpath]
  | false =>
    obtain ⟨hpath, hsib⟩ := children_of_not_testBit ht hb
    rw [if_neg Bool.false_ne_true, hsib, hpath]

theorem IsTree.climb_path {h : Nat} {node : Nat → α} (htree : IsTree combine h node)
    {index : Nat} (hi : index < 2 ^ h) :
    ∀ n t, t + n = h →
      climb combine index t (node (pathNode h index t))
        ((List.range' t n).map fun u => node (siblingNode h index u)) = node 1
  | 0, t, hn => by
    rw [Nat.add_zero] at hn
    subst hn
    simp [climb, pathNode_self hi]
  | n + 1, t, hn => by
    rw [List.range'_succ, List.map_cons, climb, htree.climb_step hi (by omega)]
    exact htree.climb_path hi n (t + 1) (by omega)

theorem IsTree.climb_branch {h : Nat} {node : Nat → α} (htree : IsTree combine h node)
    {index : Nat} (hi : index < 2 ^ h) :
    climb combine index 0 (node (2 ^ h + index)) (branch h node index) = node 1 := by
  have hpath := htree.climb_path hi h 0 (Nat.zero_add h)
  rw [pathNode_zero] at hpath
  rw [branch, List.range_eq_range']
  exact hpath

/-- Two climbs over the same siblings that end at one value started at one value, unless
`combine` has a collision on the way. -/
theorem climb_inj (index : Nat) :
    ∀ (level : Nat) (value value' : α) (siblings : List α),
      climb combine index level value siblings = climb combine index level value' siblings →
        value = value' ∨ HasCollision combine
  | _, _, _, [], h => .inl h
  | level, value, value', sibling :: rest, h => by
    rcases climb_inj index (level + 1) _ _ rest h with hstep | hcol
    · by_cases hv : value = value'
      · exact .inl hv
      · right
        by_cases hb : index.testBit level = true
        · simp only [hb, if_true] at hstep
          exact ⟨sibling, value, sibling, value', by simp [hv], hstep⟩
        · simp only [hb, if_false, Bool.false_eq_true] at hstep
          exact ⟨value, sibling, value', sibling, by simp [hv], hstep⟩
    · exact .inr hcol

@[simp] theorem length_branch (h : Nat) (node : Nat → α) (index : Nat) :
    (branch h node index).length = h := by
  simp [branch]

theorem climb_append (index : Nat) :
    ∀ (level : Nat) (value : α) (l₁ l₂ : List α),
      climb combine index level value (l₁ ++ l₂) =
        climb combine index (level + l₁.length) (climb combine index level value l₁) l₂
  | _, _, [], _ => rfl
  | level, value, sibling :: rest, l₂ => by
    rw [List.cons_append, climb, climb, climb_append index (level + 1), List.length_cons,
      Nat.add_assoc, Nat.add_comm 1]

/-! ## Building the table -/

section Fill

variable (combine) (z : α)

/-- Node `i` recomputed from its two children. -/
def fillStep (tree : List α) (i : Nat) : List α :=
  tree.set i (combine (tree.getD (2 * i) z) (tree.getD (2 * i + 1) z))

/-- The bottom-up pass over the inner nodes, from `2 ^ h - 1` down to `1`. -/
def fill (h : Nat) (tree : List α) : List α :=
  (List.range' 1 (2 ^ h - 1)).reverse.foldl (fillStep combine z) tree

/-- The pass has recomputed the nodes from `m` to `2 ^ h - 1` of the table `tree`. -/
structure Filled (h m : Nat) (tree t : List α) : Prop where
  length_eq : t.length = tree.length
  leaf_eq : ∀ j, 2 ^ h ≤ j → t.getD j z = tree.getD j z
  inner_eq : ∀ j, m ≤ j → j < 2 ^ h →
    t.getD j z = combine (t.getD (2 * j) z) (t.getD (2 * j + 1) z)

variable {combine z}

theorem Filled.step {h i : Nat} {tree t : List α} (hf : Filled combine z h (i + 1) tree t)
    (hi : 1 ≤ i) (hih : i < 2 ^ h) (hlen : 2 ^ h ≤ tree.length) :
    Filled combine z h i tree (fillStep combine z t i) := by
  have hit : i < t.length := by rw [hf.length_eq]; omega
  refine ⟨by simp [fillStep, hf.length_eq], fun j hj => ?_, fun j hj hjh => ?_⟩
  · have hne : i ≠ j := by omega
    simp only [fillStep, List.getD_eq_getElem?_getD, List.getElem?_set_ne hne]
    exact hf.leaf_eq j hj
  · have h2 : i ≠ 2 * j := by omega
    have h3 : i ≠ 2 * j + 1 := by omega
    simp only [fillStep, List.getD_eq_getElem?_getD, List.getElem?_set_ne h2,
      List.getElem?_set_ne h3]
    rcases Nat.eq_or_lt_of_le hj with rfl | hlt
    · simp [List.getElem?_set_self hit]
    · have hne : i ≠ j := by omega
      rw [List.getElem?_set_ne hne]
      simpa only [List.getD_eq_getElem?_getD] using hf.inner_eq j hlt hjh

theorem Filled.run {h : Nat} {tree : List α} (hlen : 2 ^ h ≤ tree.length) :
    ∀ k (t : List α), k < 2 ^ h → Filled combine z h (k + 1) tree t →
      Filled combine z h 1 tree ((List.range' 1 k).reverse.foldl (fillStep combine z) t)
  | 0, t, _, hf => hf
  | k + 1, t, hk, hf => by
    rw [List.range'_1_concat, List.reverse_append, List.reverse_singleton, List.singleton_append,
      List.foldl_cons, Nat.add_comm 1 k]
    exact Filled.run hlen k _ (by omega) (hf.step (by omega) hk hlen)

theorem fill_isTree (h : Nat) {tree : List α} (hlen : 2 ^ h ≤ tree.length) :
    IsTree combine h (fun j => (fill combine z h tree).getD j z) ∧
      ∀ j, 2 ^ h ≤ j → (fill combine z h tree).getD j z = tree.getD j z := by
  have hstart : Filled combine z h (2 ^ h - 1 + 1) tree tree :=
    ⟨rfl, fun _ _ => rfl, fun j hj hjh => by omega⟩
  have hone : 1 ≤ 2 ^ h := Nat.one_le_two_pow
  have hdone := Filled.run hlen (2 ^ h - 1) tree (by omega) hstart
  exact ⟨fun j hj hjh => hdone.inner_eq j hj hjh, hdone.leaf_eq⟩

theorem length_fill (h : Nat) (tree : List α) : (fill combine z h tree).length = tree.length := by
  unfold fill
  generalize (List.range' 1 (2 ^ h - 1)).reverse = l
  induction l generalizing tree with
  | nil => rfl
  | cons i l ih => simp [ih, fillStep]

end Fill

end MerkleHeap
