import Ream.Merkle.Multiproof
import Ream.Lib.HeapIndex

/-!
# Multiproofs of a tree verify

For a tree `merkle_tree` built and a depth below `64`, `generate` succeeds on leaf indices in
range and `calculate_root` returns the tree's root; the loop keeps `RootLoopInv`. At depth `64`
the masked `1 << DEPTH` refuses every index but `0`.
-/

namespace Ream.Merkle

open Ream.Consensus Ream.Beacon HeapIndex

/-! ## Paths, branches and helpers -/

theorem getPathIndices_eq (f : Nat) :
    getPathIndices f = if 1 < f then f :: getPathIndices (f / 2) else [] := by
  unfold getPathIndices
  rw [pathFoci]
  split
  · rw [List.dropLast_cons_cons]
    rfl
  · rfl

theorem mem_getPathIndices (x : Nat) :
    ∀ f, x ∈ getPathIndices f ↔ 2 ≤ x ∧ ∃ t, x = f / 2 ^ t := by
  intro f
  induction f using Nat.strong_induction_on with
  | _ f ih =>
    rw [getPathIndices_eq]
    split
    · rename_i hf
      rw [List.mem_cons, ih (f / 2) (by omega)]
      constructor
      · rintro (rfl | ⟨h2, t, rfl⟩)
        · exact ⟨hf, 0, by rw [Nat.pow_zero, Nat.div_one]⟩
        · exact ⟨h2, t + 1, by rw [Nat.div_div_eq_div_mul, ← Nat.pow_succ']⟩
      · rintro ⟨h2, t, rfl⟩
        cases t with
        | zero => exact .inl (by rw [Nat.pow_zero, Nat.div_one])
        | succ t => exact .inr ⟨h2, t, by rw [Nat.div_div_eq_div_mul, ← Nat.pow_succ']⟩
    · rename_i hf
      simp only [List.not_mem_nil, false_iff, not_and, not_exists]
      intro h2 t heq
      have : f / 2 ^ t ≤ f := Nat.div_le_self _ _
      omega

theorem branchFoci_xor_one (f : Nat) : branchFoci (f ^^^ 1) = (pathFoci f).map (· ^^^ 1) := by
  induction f using Nat.strong_induction_on with
  | _ f ih =>
    rw [branchFoci, pathFoci]
    have hcond : 1 < f ^^^ 1 ↔ 1 < f := by
      rw [xor_one_eq]
      split <;> omega
    by_cases hf : 1 < f
    · have hparent : generalizedIndexSibling (generalizedIndexParent (f ^^^ 1)) =
          generalizedIndexParent f ^^^ 1 := by
        unfold generalizedIndexSibling generalizedIndexParent
        rw [xor_one_div_two]
      rw [if_pos (hcond.mpr hf), if_pos hf, List.map_cons, hparent,
        ih (generalizedIndexParent f) (by unfold generalizedIndexParent; omega)]
    · rw [if_neg (mt hcond.mp hf), if_neg hf, List.map_nil]

theorem getBranchIndices_eq_map (g : Nat) :
    getBranchIndices g = (getPathIndices g).map generalizedIndexSibling := by
  show (generalizedIndexSibling g :: branchFoci (generalizedIndexSibling g)).dropLast = _
  rw [generalizedIndexSibling, branchFoci_xor_one,
    show (g ^^^ 1) :: (pathFoci g).map (· ^^^ 1) = (g :: pathFoci g).map (· ^^^ 1) from rfl,
    ← List.map_dropLast]
  rfl

theorem mem_getHelperIndices {gs : List Nat} {x : Nat} :
    x ∈ getHelperIndices gs ↔
      (∃ g ∈ gs, x ∈ getBranchIndices g) ∧ ∀ g ∈ gs, x ∉ getPathIndices g := by
  unfold getHelperIndices
  simp [List.mem_insertionSort, List.mem_filter, List.mem_dedup, List.mem_flatMap]

theorem nodup_getHelperIndices (gs : List Nat) : (getHelperIndices gs).Nodup :=
  (List.perm_insertionSort _ _).nodup_iff.mpr ((List.nodup_dedup _).filter _)

theorem length_getHelperIndices_congr {gs gs' : List Nat} (h : ∀ x, x ∈ gs ↔ x ∈ gs') :
    (getHelperIndices gs).length = (getHelperIndices gs').length := by
  refine ((List.perm_ext_iff_of_nodup (nodup_getHelperIndices gs)
    (nodup_getHelperIndices gs')).mpr fun x => ?_).length_eq
  simp only [mem_getHelperIndices, h]

/-! ## Leaves, helpers and `generate` -/

section Generate

variable {depth : Nat}

theorem generalizedIndexFromLeafIndex_eq {i : Nat} (hd : depth < 64) (hi : i < 2 ^ depth) :
    generalizedIndexFromLeafIndex i depth = 2 ^ depth + i := by
  have hfit : 2 ^ depth + 2 ^ depth ≤ 2 ^ 64 :=
    calc 2 ^ depth + 2 ^ depth = 2 ^ (depth + 1) := by rw [Nat.pow_succ]; omega
      _ ≤ 2 ^ 64 := Nat.pow_le_pow_right (by decide) hd
  unfold generalizedIndexFromLeafIndex
  rw [oneShiftLeft_eq hd, Nat.mod_eq_of_lt (by omega), Nat.add_comm]

theorem atLevel_leaf {i : Nat} (hi : i < 2 ^ depth) : AtLevel depth (2 ^ depth + i) :=
  ⟨by omega, by rw [Nat.pow_succ]; omega⟩

theorem exists_of_mem_getPathIndices {g a : Nat} (hg : AtLevel depth g)
    (ha : a ∈ getPathIndices g) : ∃ t < depth, a = g / 2 ^ t := by
  obtain ⟨h2, t, rfl⟩ := (mem_getPathIndices a g).mp ha
  exact ⟨t, hg.lt_of_two_le_div_pow h2, rfl⟩

theorem div_pow_mem_getPathIndices {g t : Nat} (hg : AtLevel depth g) (ht : t < depth) :
    g / 2 ^ t ∈ getPathIndices g :=
  (mem_getPathIndices _ g).mpr ⟨(hg.div_pow ht.le).two_le (by omega), t, rfl⟩

theorem helper_bounds {gs : List Nat} (hgs : ∀ g ∈ gs, AtLevel depth g) {x : Nat}
    (hx : x ∈ getHelperIndices gs) : 2 ≤ x ∧ x < 2 ^ (depth + 1) := by
  obtain ⟨⟨g, hg, hbranch⟩, -⟩ := mem_getHelperIndices.mp hx
  rw [getBranchIndices_eq_map, List.mem_map] at hbranch
  obtain ⟨a, ha, rfl⟩ := hbranch
  obtain ⟨t, ht, rfl⟩ := exists_of_mem_getPathIndices (hgs g hg) ha
  have hlevel := ((hgs g hg).div_pow ht.le).xor_one (by omega)
  exact ⟨hlevel.two_le (by omega), hlevel.lt_two_pow_of_le (by omega)⟩

/-- A set of positions that holds the leaves `gs` of one level and their helper indices, and the
parent of every pair of siblings it holds, holds the root. -/
theorem root_mem_of_helpers {gs : List Nat} {K : Nat → Prop} (hne : gs ≠ [])
    (hgs : ∀ g ∈ gs, AtLevel depth g) (hleaf : ∀ g ∈ gs, K g)
    (hhelper : ∀ x ∈ getHelperIndices gs, K x) (hclosed : ∀ a, K a → K (a ^^^ 1) → K (a / 2)) :
    K 1 := by
  refine root_mem_of_closed (G := fun g => g ∈ gs) hgs hleaf (fun g t hg ht hoff => ?_) hclosed
    (List.exists_mem_of_ne_nil gs hne)
  refine hhelper _ (mem_getHelperIndices.mpr ⟨⟨g, hg, ?_⟩, fun g' hg' hpath => ?_⟩)
  · rw [getBranchIndices_eq_map]
    exact List.mem_map_of_mem (div_pow_mem_getPathIndices (hgs g hg) ht)
  · obtain ⟨u, hu, heq⟩ := exists_of_mem_getPathIndices (hgs g' hg') hpath
    have hlevel := ((hgs g hg).div_pow ht.le).xor_one (by omega)
    rw [heq] at hlevel
    have hsame := hlevel.unique ((hgs g' hg').div_pow hu.le)
    obtain rfl : t = u := by omega
    exact hoff g' hg' heq

theorem readNodes_eq {tree : List B256} {indices : List Nat}
    (h : ∀ i ∈ indices, i < tree.length) :
    Multiproof.readNodes tree indices = .ok (indices.map fun i => (i, treeNode tree i)) := by
  unfold Multiproof.readNodes
  exact Loop.mapM_eq_ok fun i hi => by
    rw [vecIndex_of_lt B256.ZERO (h i hi)]
    rfl

variable {hashConcat : B256 → B256 → B256} {leaves tree : List B256} {indices : List Nat}

theorem atLevel_of_mem_leafIndices (hd : depth < 64) (hi : ∀ i ∈ indices, i < 2 ^ depth) :
    ∀ g ∈ indices.map (generalizedIndexFromLeafIndex · depth), AtLevel depth g := by
  intro g hg
  obtain ⟨i, hi', rfl⟩ := List.mem_map.mp hg
  rw [generalizedIndexFromLeafIndex_eq hd (hi i hi')]
  exact atLevel_leaf (hi i hi')

theorem generate_eq (htree : TreeOf hashConcat leaves depth tree) (hd : depth < 64)
    (hne : indices ≠ []) (hi : ∀ i ∈ indices, i < 2 ^ depth) :
    Multiproof.generate tree indices depth =
      .ok ⟨AssocMap.ofList ((indices.map (generalizedIndexFromLeafIndex · depth)).map
          fun g => (g, treeNode tree g)),
        AssocMap.ofList ((getHelperIndices (indices.map (generalizedIndexFromLeafIndex · depth))).map
          fun g => (g, treeNode tree g))⟩ := by
  have hlevel := atLevel_of_mem_leafIndices hd hi
  have hleaves : ∀ g ∈ indices.map (generalizedIndexFromLeafIndex · depth), g < tree.length :=
    fun g hg => by rw [htree.length_eq]; exact (hlevel g hg).2
  have hhelpers : ∀ g ∈ getHelperIndices (indices.map (generalizedIndexFromLeafIndex · depth)),
      g < tree.length :=
    fun g hg => by rw [htree.length_eq]; exact (helper_bounds hlevel hg).2
  have hall : indices.all (· < 2 ^ depth) = true :=
    List.all_eq_true.mpr fun i hi' => decide_eq_true (hi i hi')
  unfold Multiproof.generate
  rw [oneShiftLeft_eq hd, if_neg (by rw [List.isEmpty_iff]; exact hne), if_neg (not_not.mpr hall)]
  dsimp only
  rw [readNodes_eq hleaves, readNodes_eq hhelpers]
  rfl

end Generate

/-! ## `calculate_root` -/

namespace Multiproof

variable {hashConcat : B256 → B256 → B256} {leaves tree : List B256} {depth bound : Nat}

/-- What the loop of `calculate_root` keeps: every object is the tree's node at its key, and the
keys list the objects without repetition, each from `1` to `bound`. -/
structure RootLoopInv (tree : List B256) (bound : Nat) (objects : AssocMap Nat B256)
    (keys : List Nat) : Prop where
  nodup : keys.Nodup
  mem_keys : ∀ k, objects.contains k = true ↔ k ∈ keys
  node_eq : ∀ k v, objects.get? k = some v → v = treeNode tree k
  one_le : ∀ k ∈ keys, 1 ≤ k
  le_bound : ∀ k ∈ keys, k ≤ bound

section RootLoopInv

variable {objects : AssocMap Nat B256} {keys : List Nat}

theorem RootLoopInv.get?_of_mem (h : RootLoopInv tree bound objects keys) {k : Nat}
    (hk : k ∈ keys) : objects.get? k = some (treeNode tree k) := by
  obtain ⟨v, hv⟩ := Option.isSome_iff_exists.mp ((h.mem_keys k).mpr hk)
  rw [hv, h.node_eq k v hv]

theorem RootLoopInv.length_le (h : RootLoopInv tree bound objects keys) : keys.length ≤ bound := by
  have hsub : keys.toFinset ⊆ Finset.Icc 1 bound := fun k hk => by
    rw [List.mem_toFinset] at hk
    exact Finset.mem_Icc.mpr ⟨h.one_le k hk, h.le_bound k hk⟩
  calc keys.length = keys.toFinset.card := (List.toFinset_card_of_nodup h.nodup).symm
    _ ≤ (Finset.Icc 1 bound).card := Finset.card_le_card hsub
    _ = bound := by simp

theorem RootLoopInv.insert (h : RootLoopInv tree bound objects keys) {p : Nat}
    (hmissing : objects.contains p = false) (hp : 1 ≤ p) (hpb : p ≤ bound) :
    RootLoopInv tree bound (objects.insert p (treeNode tree p)) (keys ++ [p]) := by
  have hfresh : p ∉ keys := fun hk => by rw [(h.mem_keys p).mpr hk] at hmissing; cases hmissing
  refine ⟨?_, fun k => ?_, fun k v hv => ?_, fun k hk => ?_, fun k hk => ?_⟩
  · exact List.nodup_append.mpr ⟨h.nodup, List.nodup_singleton p, fun a ha b hb => by
      rw [List.mem_singleton.mp hb]
      rintro rfl
      exact hfresh ha⟩
  · unfold AssocMap.contains
    rw [AssocMap.get?_insert, List.mem_append, List.mem_singleton]
    by_cases hkp : k = p
    · simp [hkp]
    · rw [if_neg hkp, ← AssocMap.contains, h.mem_keys k]
      simp [hkp]
  · rw [AssocMap.get?_insert] at hv
    by_cases hkp : k = p
    · rw [if_pos hkp] at hv
      rw [hkp, ← Option.some.inj hv]
    · rw [if_neg hkp] at hv
      exact h.node_eq k v hv
  · rcases List.mem_append.mp hk with hk | hk
    · exact h.one_le k hk
    · rw [List.mem_singleton.mp hk]
      exact hp
  · rcases List.mem_append.mp hk with hk | hk
    · exact h.le_bound k hk
    · rw [List.mem_singleton.mp hk]
      exact hpb

end RootLoopInv

/-- One pass on a key: it does not fail, keeps the invariant, and afterwards the key's parent is
an object if its sibling is a key. -/
theorem calculateRootStep_spec {objects : AssocMap Nat B256} {keys : List Nat} {key : Nat}
    (htree : TreeOf hashConcat leaves depth tree) (hbound : bound < 2 ^ (depth + 1))
    (h : RootLoopInv tree bound objects keys) (hkey : key ∈ keys) :
    ∃ objects' extra, calculateRootStep hashConcat objects keys key = .ok (objects', keys ++ extra) ∧
      RootLoopInv tree bound objects' (keys ++ extra) ∧
      (key ^^^ 1 ∈ keys → objects'.contains (key / 2) = true) := by
  have hpresent := (h.mem_keys key).mpr hkey
  unfold calculateRootStep
  dsimp only
  by_cases hmerge : (objects.contains key && objects.contains (generalizedIndexSibling key) &&
      !objects.contains (generalizedIndexParent key)) = true
  · rw [if_pos hmerge]
    simp only [Bool.and_eq_true, Bool.not_eq_true'] at hmerge
    obtain ⟨⟨-, hsibling⟩, hmissing⟩ := hmerge
    have hsibling' : key ^^^ 1 ∈ keys := (h.mem_keys _).mp hsibling
    have hkey2 : 2 ≤ key := by
      have h0 := h.one_le _ hsibling'
      have h1 := h.one_le _ hkey
      rcases Nat.lt_or_ge key 2 with hlt | hge
      · obtain rfl : key = 1 := by omega
        exact absurd h0 (by decide)
      · exact hge
    have hright : objects.get? (key ||| 1) = some (treeNode tree (key ||| 1)) := by
      rcases or_one_mem key with he | he <;> rw [he]
      exacts [h.get?_of_mem hkey, h.get?_of_mem hsibling']
    have hleft : objects.get? (generalizedIndexSibling (key ||| 1)) =
        some (treeNode tree ((key ||| 1) ^^^ 1)) := by
      show objects.get? ((key ||| 1) ^^^ 1) = _
      rcases or_one_xor_one_mem key with he | he <;> rw [he]
      exacts [h.get?_of_mem hkey, h.get?_of_mem hsibling']
    have hnode : hashConcat (treeNode tree ((key ||| 1) ^^^ 1)) (treeNode tree (key ||| 1)) =
        treeNode tree (key / 2) := by
      have hkb := h.le_bound key hkey
      have hpow : 2 ^ (depth + 1) = 2 * 2 ^ depth := Nat.pow_succ'
      rw [or_one_xor_one_eq, or_one_eq]
      exact (htree.isTree (key / 2) (by omega) (by omega)).symm
    rw [hleft, hright]
    refine ⟨objects.insert (key / 2) (treeNode tree (key / 2)), [key / 2], ?_, ?_, ?_⟩
    · rw [← hnode]
      rfl
    · exact h.insert hmissing (by omega) (le_trans (Nat.div_le_self key 2) (h.le_bound key hkey))
    · intro _
      unfold AssocMap.contains
      rw [AssocMap.get?_insert, if_pos rfl]
      rfl
  · rw [if_neg hmerge]
    refine ⟨objects, [], by rw [List.append_nil]; rfl, by rw [List.append_nil]; exact h,
      fun hsibling => ?_⟩
    have hsibling' : objects.contains (generalizedIndexSibling key) = true :=
      (h.mem_keys _).mpr hsibling
    cases hparent : objects.contains (generalizedIndexParent key) with
    | true => exact hparent
    | false =>
      rw [hpresent, hsibling', hparent] at hmerge
      exact absurd rfl hmerge

/-- The loop from `position` runs to the end of the keys within its fuel, and ends with the
parent of every pair of sibling keys among the objects. -/
theorem calculateRootLoop_spec (htree : TreeOf hashConcat leaves depth tree)
    (hbound : bound < 2 ^ (depth + 1)) :
    ∀ (fuel : Nat) (objects : AssocMap Nat B256) (keys : List Nat) (position : Nat),
      RootLoopInv tree bound objects keys → position ≤ keys.length → bound + 1 ≤ position + fuel →
      (∀ a ∈ keys.take position, a ^^^ 1 ∈ keys.take position →
        objects.contains (a / 2) = true) →
      ∃ objects' keys', calculateRootLoop hashConcat fuel objects keys position = .ok objects' ∧
        RootLoopInv tree bound objects' keys' ∧ (∀ k ∈ keys, k ∈ keys') ∧
        ∀ a ∈ keys', a ^^^ 1 ∈ keys' → objects'.contains (a / 2) = true
  | 0, objects, keys, position, h, hpos, hfuel, _ => by
    have := h.length_le
    omega
  | fuel + 1, objects, keys, position, h, hpos, hfuel, hseen => by
    rw [calculateRootLoop]
    cases hget : keys[position]? with
    | none =>
      rw [List.take_of_length_le (List.getElem?_eq_none_iff.mp hget)] at hseen
      exact ⟨objects, keys, rfl, h, fun _ hk => hk, hseen⟩
    | some key =>
      have hlt : position < keys.length := (List.getElem?_eq_some_iff.mp hget).1
      have hkey : key ∈ keys := List.mem_of_getElem? hget
      obtain ⟨objects₁, extra, hstep, h₁, hmerged⟩ := calculateRootStep_spec htree hbound h hkey
      have hgrow : ∀ k, objects.contains k = true → objects₁.contains k = true := fun k hk =>
        (h₁.mem_keys k).mpr (List.mem_append_left _ ((h.mem_keys k).mp hk))
      have htake : (keys ++ extra).take (position + 1) = keys.take position ++ [key] := by
        rw [List.take_append_of_le_length (by omega), List.take_add_one, hget]
        rfl
      have hseen₁ : ∀ a ∈ (keys ++ extra).take (position + 1),
          a ^^^ 1 ∈ (keys ++ extra).take (position + 1) → objects₁.contains (a / 2) = true := by
        rw [htake]
        intro a ha hsibling
        rcases List.mem_append.mp ha with ha | ha
        · rcases List.mem_append.mp hsibling with hsibling | hsibling
          · exact hgrow _ (hseen a ha hsibling)
          · have hsib : a = key ^^^ 1 := by rw [← List.mem_singleton.mp hsibling, xor_one_xor_one]
            rw [hsib, xor_one_div_two]
            exact hmerged (hsib ▸ List.mem_of_mem_take ha)
        · obtain rfl := List.mem_singleton.mp ha
          rcases List.mem_append.mp hsibling with hsibling | hsibling
          · exact hmerged (List.mem_of_mem_take hsibling)
          · exact absurd (List.mem_singleton.mp hsibling) (xor_one_ne a)
      obtain ⟨objects', keys', hloop, h', hsub, hclosed⟩ :=
        calculateRootLoop_spec htree hbound fuel objects₁ (keys ++ extra) (position + 1) h₁
          (by rw [List.length_append]; omega) (by omega) hseen₁
      refine ⟨objects', keys', ?_, h', fun k hk => hsub k (List.mem_append_left _ hk), hclosed⟩
      dsimp only
      rw [hstep]
      exact hloop

theorem le_foldl_max : ∀ (l : List Nat) (b : Nat), b ≤ l.foldl max b ∧ ∀ a ∈ l, a ≤ l.foldl max b
  | [], b => ⟨le_rfl, fun _ h => nomatch h⟩
  | x :: l, b => by
    obtain ⟨hb, hl⟩ := le_foldl_max l (max b x)
    refine ⟨le_trans (Nat.le_max_left b x) hb, fun a ha => ?_⟩
    rcases List.mem_cons.mp ha with rfl | ha
    · exact le_trans (Nat.le_max_right b a) hb
    · exact hl a ha

theorem foldl_max_lt : ∀ (l : List Nat) {b N : Nat}, b < N → (∀ a ∈ l, a < N) →
    l.foldl max b < N
  | [], _, _, hb, _ => hb
  | x :: l, _, _, hb, hl => foldl_max_lt l (Nat.max_lt.mpr ⟨hb, hl x List.mem_cons_self⟩)
      fun a ha => hl a (List.mem_cons_of_mem x ha)

/-- Leaves `G` of one level and proof nodes at their helper indices, all read from a tree: the
loop reaches the root, and `calculate_root` returns the tree's root. -/
theorem calculateRoot_eq (htree : TreeOf hashConcat leaves depth tree) {m : Multiproof}
    {G : List Nat} (hne : G ≠ []) (hG : ∀ g ∈ G, AtLevel depth g)
    (hleaves : ∀ k, m.leaves.get? k = if k ∈ G then some (treeNode tree k) else none)
    (hproofs : ∀ k, m.proofs.get? k =
      if k ∈ getHelperIndices G then some (treeNode tree k) else none) :
    m.calculateRoot hashConcat = .ok (treeNode tree 1) := by
  have hleafKeys : ∀ k, k ∈ m.leaves.keys ↔ k ∈ G := fun k => by
    rw [AssocMap.mem_keys, hleaves]
    split <;> simp [*]
  have hproofKeys : ∀ k, k ∈ m.proofs.keys ↔ k ∈ getHelperIndices G := fun k => by
    rw [AssocMap.mem_keys, hproofs]
    split <;> simp [*]
  have hsize : m.proofs.size = (getHelperIndices m.leaves.keys).length := by
    rw [AssocMap.size_eq_length_keys, length_getHelperIndices_congr hleafKeys]
    exact ((List.perm_ext_iff_of_nodup m.proofs.keys_nodup (nodup_getHelperIndices G)).mpr
      hproofKeys).length_eq
  unfold calculateRoot
  rw [if_pos hsize]
  dsimp only
  generalize hobjects : AssocMap.ofList (m.leaves.entries ++ m.proofs.entries) = objects
  generalize hkeys : objects.keys.insertionSort (fun a b => b ≤ a) = keys
  have hget : ∀ k, objects.get? k =
      if k ∈ G ∨ k ∈ getHelperIndices G then some (treeNode tree k) else none := by
    intro k
    rw [← hobjects, AssocMap.get?_ofList_append_entries, hleaves, hproofs]
    by_cases hh : k ∈ getHelperIndices G <;> by_cases hg : k ∈ G <;> simp [hh, hg]
  have hmem : ∀ k, k ∈ keys ↔ k ∈ G ∨ k ∈ getHelperIndices G := fun k => by
    rw [← hkeys, List.mem_insertionSort, AssocMap.mem_keys, hget]
    split <;> simp [*]
  have hrange : ∀ k ∈ keys, 1 ≤ k ∧ k < 2 ^ (depth + 1) := fun k hk => by
    rcases (hmem k).mp hk with hk | hk
    · exact ⟨(hG k hk).one_le, (hG k hk).2⟩
    · obtain ⟨h2, hlt⟩ := helper_bounds hG hk
      exact ⟨by omega, hlt⟩
  have hbound : keys.foldl max 0 < 2 ^ (depth + 1) :=
    foldl_max_lt keys (Nat.two_pow_pos _) fun k hk => (hrange k hk).2
  have hinv : RootLoopInv tree (keys.foldl max 0) objects keys := by
    refine ⟨?_, fun k => ?_, fun k v hv => ?_, fun k hk => (hrange k hk).1, (le_foldl_max keys 0).2⟩
    · rw [← hkeys]
      exact (List.perm_insertionSort _ _).nodup_iff.mpr objects.keys_nodup
    · rw [← hkeys, List.mem_insertionSort, AssocMap.mem_keys]
      rfl
    · rw [hget] at hv
      split at hv
      · exact (Option.some.inj hv).symm
      · cases hv
  obtain ⟨objects', keys', hloop, h', hsub, hclosed⟩ :=
    calculateRootLoop_spec htree hbound (keys.length + keys.foldl max 0 + 2) objects keys 0 hinv
      (Nat.zero_le _) (by omega) (by simp)
  have hroot : objects'.contains 1 = true :=
    root_mem_of_helpers (K := fun k => objects'.contains k = true) hne hG
      (fun g hg => (h'.mem_keys g).mpr (hsub g ((hmem g).mpr (.inl hg))))
      (fun x hx => (h'.mem_keys x).mpr (hsub x ((hmem x).mpr (.inr hx))))
      (fun a ha hsib => hclosed a ((h'.mem_keys a).mp ha) ((h'.mem_keys _).mp hsib))
  rw [hloop]
  dsimp only [bind, Except.bind]
  rw [h'.get?_of_mem ((h'.mem_keys 1).mp hroot)]

end Multiproof

/-! ## Completeness -/

/-- For every depth below `64`, leaf list that fits and non-empty list of leaf indices in range,
repeats allowed: `generate` on the tree that `merkle_tree` builds succeeds, its proof nodes are
keyed by exactly the helper indices of the leaves' generalized indices, and `calculate_root`
returns the tree's root. -/
theorem multiproof_complete (hashConcat : B256 → B256 → B256) (leaves : List B256)
    (depth : Nat) (indices : List Nat) (hd : depth < 64) (hl : leaves.length ≤ 2 ^ depth)
    (hne : indices ≠ []) (hi : ∀ i ∈ indices, i < 2 ^ depth) :
    ∃ tree m, merkleTree hashConcat leaves depth = .ok tree ∧
      Multiproof.generate tree indices depth = .ok m ∧
      m.proofs.keys.Perm (getHelperIndices (indices.map (generalizedIndexFromLeafIndex · depth))) ∧
      m.calculateRoot hashConcat = .ok (treeNode tree 1) := by
  obtain ⟨tree, hbuild, htree⟩ := @merkleTree_ok hashConcat leaves depth hd hl
  have hG := atLevel_of_mem_leafIndices hd hi
  have hGne : indices.map (generalizedIndexFromLeafIndex · depth) ≠ [] :=
    mt List.map_eq_nil_iff.mp hne
  refine ⟨tree, _, hbuild, generate_eq htree hd hne hi, ?_, ?_⟩
  · refine (List.perm_ext_iff_of_nodup (AssocMap.keys_nodup _) (nodup_getHelperIndices _)).mpr
      fun k => ?_
    rw [AssocMap.mem_keys, AssocMap.get?_ofList_map]
    split <;> simp [*]
  · exact Multiproof.calculateRoot_eq htree hGne hG (fun k => AssocMap.get?_ofList_map _ _ k)
      (fun k => AssocMap.get?_ofList_map _ _ k)

/-- The test of the source: leaves `2` and `7` of a tree of depth three, here over a sum for the
hash. -/
theorem multiproof_complete_two_seven :
    3 < 64 ∧ ([0xAA, 0xBB, 0xCC, 0xDD, 0xEE, 0xFF, 0x11, 0x22] : List B256).length ≤ 2 ^ 3 ∧
      [2, 7] ≠ [] ∧ (∀ i ∈ [2, 7], i < 2 ^ 3) ∧
      ∃ tree m, merkleTree (fun a b => a + b) [0xAA, 0xBB, 0xCC, 0xDD, 0xEE, 0xFF, 0x11, 0x22] 3 =
          .ok tree ∧
        Multiproof.generate tree [2, 7] 3 = .ok m ∧
        m.proofs.keys.Perm (getHelperIndices ([2, 7].map (generalizedIndexFromLeafIndex · 3))) ∧
        m.calculateRoot (fun a b => a + b) = .ok (treeNode tree 1) :=
  ⟨by decide, by decide, by decide, by decide,
    multiproof_complete (fun a b => a + b) [0xAA, 0xBB, 0xCC, 0xDD, 0xEE, 0xFF, 0x11, 0x22] 3
      [2, 7] (by decide) (by decide) (by decide) (by decide)⟩

/-- At depth `64` the shift of `1 << DEPTH` is masked to nothing: the tree of no leaves is built,
but `generate` refuses leaf `1`, which is below `2 ^ 64`. -/
theorem generate_depth_sixty_four :
    ([] : List B256).length ≤ 2 ^ 64 ∧ (∀ i ∈ [1], i < 2 ^ 64) ∧
      merkleTree (fun _ _ => B256.ZERO) [] 64 = .ok [B256.ZERO, B256.ZERO] ∧
      Multiproof.generate [B256.ZERO, B256.ZERO] [1] 64 = .error "Index out of bounds" :=
  ⟨by decide, by decide, rfl, rfl⟩

end Ream.Merkle
