import Ream.ForkChoice.Head
import Ream.Lib.Ghost

/-!
# LMD GHOST against its reference

The reference weight counts the votes at a block or its descendants, and the reference head is a
`Ghost.Descent` by `(weight, root)`. From a non-zero root of the children index the function
returns it (`computeLmdGhostHead_eq_reference`).
-/

namespace Ream.ForkChoice

open Ssz Ream.Consensus

section Reference

variable (idx : AssocMap B256 ChildIndexEntry)

/-- `c` is in the index with parent `p`. -/
def ChildOf (p c : B256) : Prop := ∃ e, idx.get? c = some e ∧ e.parentRoot = p

/-- `d` is `b` or a descendant of `b` through the index. -/
def Descends (b d : B256) : Prop := Relation.ReflTransGen (ChildOf idx) b d

/-- Slots grow from an indexed parent to its child. -/
def SlotOrdered : Prop :=
  ∀ c e pe, idx.get? c = some e → idx.get? e.parentRoot = some pe → pe.slot < e.slot

/-- A vote for `d` weighs on `b`: `b` is indexed above the start slot and `d` descends
from it. -/
def CountsFor (startSlot : Nat) (b d : B256) : Prop :=
  (∃ e, idx.get? b = some e ∧ startSlot < e.slot) ∧ Descends idx b d

open Classical in
/-- The reference weight of `b`: the votes whose head is `b` or a descendant of `b`, for `b`
above the start slot. -/
noncomputable def refWeight (startSlot : Nat) (attestations : List AttestationData)
    (b : B256) : Nat :=
  attestations.countP fun data => decide (CountsFor idx startSlot b data.head.root)

/-- A child the descent may move to: an indexed child of a non-zero block, heavy enough when
a score is asked for. -/
def EligibleChild (weight : B256 → Nat) (minScore : Nat) (b c : B256) : Prop :=
  ChildOf idx b c ∧ b ≠ B256.ZERO ∧ (minScore = 0 ∨ minScore ≤ weight c)

/-- The key of the descent: the weight, then the root. -/
def ghostKey (weight : B256 → Nat) (c : B256) : ℕ ×ₗ B256 := toLex (weight c, c)

/-- The reference head from `root`: the descent under the weights counted above the root's
slot. -/
def IsReferenceHead (attestations : List AttestationData) (minScore : Nat) (root head : B256) :
    Prop :=
  ∃ e path, idx.get? root = some e ∧
    Ghost.Descent (EligibleChild idx (refWeight idx e.slot attestations) minScore)
      (ghostKey (refWeight idx e.slot attestations)) root path head

/-- The slot the index gives a root, `0` outside it, as `bestChild` reads it. -/
def indexSlot (r : B256) : Nat := ((idx.get? r).map ChildIndexEntry.slot).getD 0

/-- The indexed blocks at or below a slot: what a walk up the parent links can still visit. -/
def atOrBelow (slot : Nat) : Nat := idx.entries.countP fun x => decide (x.2.slot ≤ slot)

/-- The indexed blocks at or above a slot: what a walk down to children can still visit. -/
def atOrAbove (slot : Nat) : Nat := idx.entries.countP fun x => decide (slot ≤ x.2.slot)

end Reference

variable {idx : AssocMap B256 ChildIndexEntry}

theorem ghostKey_injective (weight : B256 → Nat) : Function.Injective (ghostKey weight) := by
  intro c c' h
  have h' := congrArg (fun x => (ofLex x).2) h
  simpa [ghostKey] using h'

theorem indexSlot_of_get {r : B256} {e : ChildIndexEntry} (h : idx.get? r = some e) :
    indexSlot idx r = e.slot := by
  simp [indexSlot, h]

/-! ## Slots along the index -/

theorem ChildOf.slot_lt (hord : SlotOrdered idx) {p c : B256} {ep : ChildIndexEntry}
    (h : ChildOf idx p c) (hp : idx.get? p = some ep) :
    ∃ ec, idx.get? c = some ec ∧ ep.slot < ec.slot := by
  obtain ⟨ec, hc, rfl⟩ := h
  exact ⟨ec, hc, hord c ec ep hc hp⟩

theorem Descends.slot_lt (hord : SlotOrdered idx) {b d : B256} {eb : ChildIndexEntry}
    (h : Descends idx b d) (hb : idx.get? b = some eb) :
    b = d ∨ ∃ ed, idx.get? d = some ed ∧ eb.slot < ed.slot := by
  have hstep : ∀ x y, ChildOf idx x y → (∃ ex, idx.get? x = some ex) →
      (∃ ey, idx.get? y = some ey) ∧ indexSlot idx x < indexSlot idx y := by
    rintro x y hxy ⟨ex, hx⟩
    obtain ⟨ey, hy, hlt⟩ := hxy.slot_lt hord hx
    exact ⟨⟨ey, hy⟩, by rwa [indexSlot_of_get hx, indexSlot_of_get hy]⟩
  rcases Ghost.reflTransGen_lt hstep h ⟨eb, hb⟩ with rfl | ⟨⟨ed, hd⟩, hlt⟩
  · exact .inl rfl
  · exact .inr ⟨ed, hd, by rwa [indexSlot_of_get hb, indexSlot_of_get hd] at hlt⟩

theorem not_descends_parent (hord : SlotOrdered idx) {c : B256} {e : ChildIndexEntry}
    (hc : idx.get? c = some e) : ¬ Descends idx c e.parentRoot := by
  intro h
  rcases h.slot_lt hord hc with hp | ⟨ep, hp, hlt⟩
  · have hself := hord c e e hc (hp ▸ hc)
    omega
  · have := hord c e ep hc hp
    omega

/-! ## The weight walk -/

theorem not_countsFor_of_none {startSlot : Nat} {b d : B256} (hd : idx.get? d = none) :
    ¬ CountsFor idx startSlot b d := by
  rintro ⟨⟨eb, hb, -⟩, h⟩
  rcases h.cases_tail with rfl | ⟨c, -, ⟨ed, hd', -⟩⟩
  · rw [hb] at hd
    cases hd
  · rw [hd] at hd'
    cases hd'

theorem not_countsFor_of_le (hord : SlotOrdered idx) {startSlot : Nat} {b d : B256}
    {e : ChildIndexEntry} (hd : idx.get? d = some e) (hle : e.slot ≤ startSlot) :
    ¬ CountsFor idx startSlot b d := by
  rintro ⟨⟨eb, hb, hlt⟩, h⟩
  rcases h.slot_lt hord hb with rfl | ⟨ed, hd', hlt'⟩
  · rw [hb] at hd
    cases hd
    omega
  · rw [hd] at hd'
    cases hd'
    omega

/-- A vote for a block above the start slot counts for the block and for what a vote for its
parent counts for. -/
theorem countsFor_iff {startSlot : Nat} {current : B256}
    {e : ChildIndexEntry} (hc : idx.get? current = some e) (hslot : startSlot < e.slot)
    (b : B256) :
    CountsFor idx startSlot b current ↔ b = current ∨ CountsFor idx startSlot b e.parentRoot := by
  constructor
  · rintro ⟨hb, h⟩
    rcases h.cases_tail with rfl | ⟨p, hp, ⟨e', hc', hpe⟩⟩
    · exact .inl rfl
    · rw [hc] at hc'
      cases hc'
      exact .inr ⟨hb, hpe ▸ hp⟩
  · rintro (rfl | ⟨hb, h⟩)
    · exact ⟨⟨e, hc, hslot⟩, .refl⟩
    · exact ⟨hb, h.tail ⟨e, hc, rfl⟩⟩

theorem atOrBelow_pos {c : B256} {e : ChildIndexEntry} (hc : idx.get? c = some e) :
    0 < atOrBelow idx e.slot :=
  List.countP_pos_iff.mpr ⟨(c, e), (AssocMap.mem_entries_iff idx c e).mpr hc, by simp⟩

theorem atOrBelow_lt {c : B256} {e : ChildIndexEntry} {slot : Nat} (hc : idx.get? c = some e)
    (hlt : slot < e.slot) : atOrBelow idx slot < atOrBelow idx e.slot :=
  Ghost.countP_lt_countP (fun x _ hx => by simp at hx ⊢; omega)
    ((AssocMap.mem_entries_iff idx c e).mpr hc) (by simp) (by simp; omega)

theorem atOrAbove_pos {c : B256} {e : ChildIndexEntry} (hc : idx.get? c = some e) :
    0 < atOrAbove idx e.slot :=
  List.countP_pos_iff.mpr ⟨(c, e), (AssocMap.mem_entries_iff idx c e).mpr hc, by simp⟩

theorem atOrAbove_lt {c : B256} {e : ChildIndexEntry} {slot : Nat} (hc : idx.get? c = some e)
    (hlt : e.slot < slot) : atOrAbove idx slot < atOrAbove idx e.slot :=
  Ghost.countP_lt_countP (fun x _ hx => by simp at hx ⊢; omega)
    ((AssocMap.mem_entries_iff idx c e).mpr hc) (by simp) (by simp; omega)

open Classical in
/-- The walk from `current` adds one to every block a vote for `current` counts for, and to no
other, once its fuel covers the blocks at or below `current`. -/
theorem addWeights_getD (hord : SlotOrdered idx) (startSlot : Nat) (b : B256) :
    ∀ (fuel : Nat) (current : B256) (weights : AssocMap B256 Nat),
      (∀ e, idx.get? current = some e → atOrBelow idx e.slot ≤ fuel) →
      (addWeights idx startSlot fuel current weights).getD b 0 =
        weights.getD b 0 + if CountsFor idx startSlot b current then 1 else 0
  | 0, current, weights, hfuel => by
    have hnone : idx.get? current = none := by
      cases hc : idx.get? current with
      | none => rfl
      | some e =>
        have := atOrBelow_pos hc
        have := hfuel e hc
        omega
    simp [addWeights, not_countsFor_of_none hnone]
  | fuel + 1, current, weights, hfuel => by
    cases hc : idx.get? current with
    | none => simp [addWeights, hc, not_countsFor_of_none hc]
    | some e =>
      by_cases hle : e.slot ≤ startSlot
      · simp [addWeights, hc, hle, not_countsFor_of_le hord hc hle]
      · have hparent : ∀ ep, idx.get? e.parentRoot = some ep → atOrBelow idx ep.slot ≤ fuel := by
          intro ep hp
          have := atOrBelow_lt hc (hord current e ep hc hp)
          have := hfuel e hc
          omega
        have hslot : startSlot < e.slot := by omega
        simp only [addWeights, hc, hle, if_false]
        rw [addWeights_getD hord startSlot b fuel e.parentRoot _ hparent]
        by_cases hb : b = current
        · subst hb
          have hnot : ¬ CountsFor idx startSlot b e.parentRoot :=
            fun h => not_descends_parent hord hc h.2
          have hself : CountsFor idx startSlot b b := ⟨⟨e, hc, hslot⟩, .refl⟩
          simp [AssocMap.getD, hnot, hself]
        · simp [AssocMap.getD, hb, countsFor_iff hc hslot b]

theorem foldl_addWeights_getD (hord : SlotOrdered idx) (startSlot : Nat) (b : B256) :
    ∀ (attestations : List AttestationData) (weights : AssocMap B256 Nat),
      (attestations.foldl (fun weights data =>
          addWeights idx startSlot (idx.size + 1) data.head.root weights) weights).getD b 0 =
        weights.getD b 0 + refWeight idx startSlot attestations b
  | [], weights => by simp [refWeight]
  | data :: rest, weights => by
    have hfuel : ∀ e, idx.get? data.head.root = some e → atOrBelow idx e.slot ≤ idx.size + 1 :=
      fun _ _ => (List.countP_le_length).trans (Nat.le_succ _)
    rw [List.foldl_cons, foldl_addWeights_getD hord startSlot b rest,
      addWeights_getD hord startSlot b _ _ _ hfuel]
    simp only [refWeight, List.countP_cons]
    by_cases h : CountsFor idx startSlot b data.head.root
    · simp only [h, decide_true, if_true]
      omega
    · simp only [h, decide_false, Bool.false_eq_true, if_false]
      omega

/-! ## The children map and the best child -/

section ChildrenFold

variable (weights : AssocMap B256 Nat) (minScore : Nat)

/-- One step of `children_map`, over an entry of the index. -/
def childrenStep (children : AssocMap B256 (List B256)) (x : B256 × ChildIndexEntry) :
    AssocMap B256 (List B256) :=
  if x.2.parentRoot = B256.ZERO then children
  else if minScore > 0 ∧ weights.getD x.1 0 < minScore then children
  else children.insert x.2.parentRoot (children.getD x.2.parentRoot [] ++ [x.1])

theorem childrenMap_eq :
    childrenMap idx weights minScore =
      idx.entries.foldl (childrenStep weights minScore) AssocMap.empty :=
  rfl

variable (p : B256)

/-- `children_map` keeps the entry `x` under `p`. -/
def KeptUnder (x : B256 × ChildIndexEntry) : Prop :=
  x.2.parentRoot = p ∧ p ≠ B256.ZERO ∧ (minScore = 0 ∨ minScore ≤ weights.getD x.1 0)

instance (x : B256 × ChildIndexEntry) : Decidable (KeptUnder weights minScore p x) :=
  inferInstanceAs (Decidable (_ ∧ _ ∧ _))

/-- The entries of a list that `children_map` keeps under `p`. -/
def keptEntries (l : List (B256 × ChildIndexEntry)) : List (B256 × ChildIndexEntry) :=
  l.filter fun x => decide (KeptUnder weights minScore p x)

theorem keptEntries_cons (x : B256 × ChildIndexEntry) (l : List (B256 × ChildIndexEntry)) :
    keptEntries weights minScore p (x :: l) =
      if KeptUnder weights minScore p x then x :: keptEntries weights minScore p l
      else keptEntries weights minScore p l := by
  simp only [keptEntries, List.filter_cons, decide_eq_true_eq]

/-- The three cases of a step seen from `p`: the entry is skipped, kept under `p`, or kept
under another parent. -/
theorem childrenStep_get? (children : AssocMap B256 (List B256)) (x : B256 × ChildIndexEntry) :
    (childrenStep weights minScore children x).get? p =
      if KeptUnder weights minScore p x then some (children.getD p [] ++ [x.1])
      else children.get? p := by
  unfold childrenStep
  by_cases hzero : x.2.parentRoot = B256.ZERO
  · have hkept : ¬ KeptUnder weights minScore p x := fun h => h.2.1 (h.1 ▸ hzero)
    rw [if_pos hzero, if_neg hkept]
  · by_cases hscore : minScore > 0 ∧ weights.getD x.1 0 < minScore
    · have hkept : ¬ KeptUnder weights minScore p x := fun h => by
        rcases h.2.2 with h0 | hle <;> omega
      rw [if_neg hzero, if_pos hscore, if_neg hkept]
    · rw [if_neg hzero, if_neg hscore, AssocMap.get?_insert]
      by_cases hp : x.2.parentRoot = p
      · have hkept : KeptUnder weights minScore p x := ⟨hp, hp ▸ hzero, by omega⟩
        rw [if_pos hp.symm, if_pos hkept, hp]
      · rw [if_neg (Ne.symm hp), if_neg fun h => hp h.1]

theorem foldl_childrenStep_getD : ∀ (l : List (B256 × ChildIndexEntry))
    (children : AssocMap B256 (List B256)),
    (l.foldl (childrenStep weights minScore) children).getD p [] =
      children.getD p [] ++ (keptEntries weights minScore p l).map Prod.fst
  | [], children => by simp [keptEntries]
  | x :: l, children => by
    rw [List.foldl_cons, foldl_childrenStep_getD l, keptEntries_cons]
    by_cases hkept : KeptUnder weights minScore p x
    · simp [AssocMap.getD, childrenStep_get?, hkept]
    · simp [AssocMap.getD, childrenStep_get?, hkept]

theorem foldl_childrenStep_eq_none : ∀ (l : List (B256 × ChildIndexEntry))
    (children : AssocMap B256 (List B256)),
    (l.foldl (childrenStep weights minScore) children).get? p = none ↔
      children.get? p = none ∧ keptEntries weights minScore p l = []
  | [], children => by simp [keptEntries]
  | x :: l, children => by
    rw [List.foldl_cons, foldl_childrenStep_eq_none l, keptEntries_cons, childrenStep_get?]
    by_cases hkept : KeptUnder weights minScore p x
    · simp [hkept]
    · simp [hkept]

end ChildrenFold

/-- The children `children_map` keeps under `p`, in the index's order. -/
def keptChildren (idx : AssocMap B256 ChildIndexEntry) (weights : AssocMap B256 Nat)
    (minScore : Nat) (p : B256) : List B256 :=
  (keptEntries weights minScore p idx.entries).map Prod.fst

theorem mem_keptChildren {weights : AssocMap B256 Nat} {minScore : Nat} {p c : B256} :
    c ∈ keptChildren idx weights minScore p ↔
      EligibleChild idx (weights.getD · 0) minScore p c := by
  simp only [keptChildren, keptEntries, List.mem_map, List.mem_filter, decide_eq_true_eq]
  constructor
  · rintro ⟨⟨c', e⟩, ⟨hmem, hp, hne, hscore⟩, rfl⟩
    exact ⟨⟨e, (AssocMap.mem_entries_iff idx c' e).mp hmem, hp⟩, hne, hscore⟩
  · rintro ⟨⟨e, hc, hp⟩, hne, hscore⟩
    exact ⟨(c, e), ⟨(AssocMap.mem_entries_iff idx c e).mpr hc, hp, hne, hscore⟩, rfl⟩

theorem childrenMap_eq_none {weights : AssocMap B256 Nat} {minScore : Nat} {p : B256}
    (h : (childrenMap idx weights minScore).get? p = none) (c : B256) :
    ¬ EligibleChild idx (weights.getD · 0) minScore p c := by
  rw [childrenMap_eq, foldl_childrenStep_eq_none] at h
  intro hc
  have hmem := mem_keptChildren.mpr hc
  rw [keptChildren, h.2] at hmem
  cases hmem

theorem childrenMap_eq_some {weights : AssocMap B256 Nat} {minScore : Nat} {p : B256}
    {cs : List B256} (h : (childrenMap idx weights minScore).get? p = some cs) :
    cs = keptChildren idx weights minScore p ∧ cs ≠ [] := by
  have hget : cs = keptChildren idx weights minScore p := by
    have hd := foldl_childrenStep_getD weights minScore p idx.entries AssocMap.empty
    rw [← childrenMap_eq, AssocMap.getD, h] at hd
    simpa [keptChildren, AssocMap.getD] using hd
  refine ⟨hget, fun hnil => ?_⟩
  have hnone : (childrenMap idx weights minScore).get? p = none := by
    rw [childrenMap_eq, foldl_childrenStep_eq_none]
    refine ⟨rfl, ?_⟩
    rw [hget, keptChildren] at hnil
    exact List.map_eq_nil_iff.mp hnil
  rw [h] at hnone
  cases hnone

theorem ghostKey_le_iff {weight : B256 → Nat} {b c : B256} :
    ghostKey weight b ≤ ghostKey weight c ↔ weight b < weight c ∨ (weight b = weight c ∧ b ≤ c) :=
  Prod.Lex.toLex_le_toLex

/-- The fold of `bestChild` over `(root, slot)` pairs follows a fold of `Ghost.pick` over the
roots, and carries the slot of the root it holds. -/
theorem foldl_bestChild (weights : AssocMap B256 Nat) : ∀ (l : List B256) (x : B256),
    l.foldl (fun best c =>
        if weights.getD best.1 0 < weights.getD c 0 ∨
          (weights.getD best.1 0 = weights.getD c 0 ∧ best.1 ≤ c)
        then (c, indexSlot idx c) else best) (x, indexSlot idx x) =
      (l.foldl (Ghost.pick (ghostKey (weights.getD · 0))) x,
        indexSlot idx (l.foldl (Ghost.pick (ghostKey (weights.getD · 0))) x))
  | [], _ => rfl
  | c :: l, x => by
    simp only [List.foldl_cons]
    by_cases hle : ghostKey (weights.getD · 0) x ≤ ghostKey (weights.getD · 0) c
    · rw [Ghost.pick_of_le hle, if_pos (ghostKey_le_iff.mp hle)]
      exact foldl_bestChild weights l c
    · rw [Ghost.pick_of_lt (lt_of_not_ge hle), if_neg (mt ghostKey_le_iff.mpr hle)]
      exact foldl_bestChild weights l x

/-- `max_by_key` over a non-empty list of children: the pick with the largest key, and its
slot in the index. -/
theorem bestChild_cons (weights : AssocMap B256 Nat) (c : B256) (cs : List B256) :
    bestChild idx weights (c :: cs) =
      some (cs.foldl (Ghost.pick (ghostKey (weights.getD · 0))) c,
        indexSlot idx (cs.foldl (Ghost.pick (ghostKey (weights.getD · 0))) c)) := by
  rw [bestChild]
  exact congrArg some (foldl_bestChild weights cs c)

/-! ## The descent -/

/-- From an indexed block, once the fuel covers the blocks at or above it, the descent returns
the end of the greedy descent under the weights it is given, and its slot. -/
theorem descend_spec (hord : SlotOrdered idx) (weights : AssocMap B256 Nat) (minScore : Nat) :
    ∀ (fuel : Nat) (head : B256) (eh : ChildIndexEntry), idx.get? head = some eh →
      atOrAbove idx eh.slot ≤ fuel →
      ∃ h eh' path, idx.get? h = some eh' ∧
        descend idx weights (childrenMap idx weights minScore) fuel head eh.slot =
          .ok (h, eh'.slot) ∧
        Ghost.Descent (EligibleChild idx (weights.getD · 0) minScore)
          (ghostKey (weights.getD · 0)) head path h
  | 0, head, eh, hh, hfuel => absurd hfuel (by have := atOrAbove_pos hh; omega)
  | fuel + 1, head, eh, hh, hfuel => by
    cases hcs : (childrenMap idx weights minScore).get? head with
    | none =>
      refine ⟨head, eh, [], hh, ?_, .leaf (childrenMap_eq_none hcs)⟩
      simp [descend, hcs]
    | some cs =>
      obtain ⟨hkept, hne⟩ := childrenMap_eq_some hcs
      obtain ⟨c, rest, rfl⟩ := List.exists_cons_of_ne_nil hne
      have hmem := Ghost.foldl_pick_mem (ghostKey (weights.getD · 0)) c rest
      have helig : EligibleChild idx (weights.getD · 0) minScore head
          (rest.foldl (Ghost.pick (ghostKey (weights.getD · 0))) c) :=
        mem_keptChildren.mp (hkept ▸ hmem)
      have hbest : Ghost.IsBestChild (EligibleChild idx (weights.getD · 0) minScore)
          (ghostKey (weights.getD · 0)) head
          (rest.foldl (Ghost.pick (ghostKey (weights.getD · 0))) c) :=
        ⟨helig, fun c' hc' => Ghost.le_foldl_pick _ c rest c' (hkept ▸ mem_keptChildren.mpr hc')⟩
      obtain ⟨em, hem, hlt⟩ := helig.1.slot_lt hord hh
      have hfuel' : atOrAbove idx em.slot ≤ fuel := by
        have := atOrAbove_lt hh hlt
        omega
      obtain ⟨h, eh', path, hh', hdesc, hd⟩ := descend_spec hord weights minScore fuel _ em hem hfuel'
      refine ⟨h, eh', _ :: path, hh', ?_, .step hbest hd⟩
      rw [descend, hcs]
      simp only [bestChild_cons, indexSlot_of_get hem]
      exact hdesc

/-! ## `compute_lmd_ghost_head` -/

/-- From a non-zero root of an index whose slots grow from parent to child, for every minimum
score and every list of votes, `compute_lmd_ghost_head` returns the one reference head, a
descendant-or-self of the root, with its slot in the index. -/
theorem computeLmdGhostHead_eq_reference (s : Store) (attestations : List AttestationData)
    (providedRoot : B256) (minScore : Nat) (hord : SlotOrdered s.childrenIndex)
    (hzero : providedRoot ≠ B256.ZERO) (hroot : (s.childrenIndex.get? providedRoot).isSome) :
    ∃ head entry, s.childrenIndex.get? head = some entry ∧
      s.computeLmdGhostHead attestations providedRoot minScore = .ok (head, entry.slot) ∧
      Descends s.childrenIndex providedRoot head ∧
      ∀ h, IsReferenceHead s.childrenIndex attestations minScore providedRoot h ↔ h = head := by
  obtain ⟨e, he⟩ := Option.isSome_iff_exists.mp hroot
  have hghost : s.ghostRoot providedRoot = .ok providedRoot := by
    simp [Store.ghostRoot, hzero, he]
  let weights := attestations.foldl (fun weights data =>
      addWeights s.childrenIndex e.slot (s.childrenIndex.size + 1) data.head.root weights)
    AssocMap.empty
  have hweights : (weights.getD · 0) = refWeight s.childrenIndex e.slot attestations :=
    funext fun b => by
      simpa [AssocMap.getD] using foldl_addWeights_getD hord e.slot b attestations AssocMap.empty
  obtain ⟨head, entry, path, hhead, hdesc, hd⟩ := descend_spec hord weights minScore
    (s.childrenIndex.size + 1) providedRoot e he ((List.countP_le_length).trans (Nat.le_succ _))
  rw [hweights] at hd
  refine ⟨head, entry, hhead, ?_,
    Relation.ReflTransGen.mono (fun _ _ hc => hc.1) _ _ hd.reflTransGen, fun h => ⟨?_, ?_⟩⟩
  · simp only [Store.computeLmdGhostHead, hghost, he, Except.ok_bind]
    exact hdesc
  · rintro ⟨e', path', he', hd'⟩
    rw [he] at he'
    cases he'
    exact (hd'.unique (ghostKey_injective _) hd).2
  · rintro rfl
    exact ⟨e, path, he, hd⟩

/-- Two blocks: `1` at slot 1 under the zero root, `2` at slot 2 under `1`. -/
def twoBlockStore : Store :=
  { Store.empty with
    childrenIndex := (AssocMap.empty.insert 1 ⟨1, B256.ZERO⟩).insert 2 ⟨2, 1⟩ }

theorem twoBlockStore_slotOrdered : SlotOrdered twoBlockStore.childrenIndex := by
  intro c e pe hc hp
  simp only [twoBlockStore, AssocMap.get?_insert, AssocMap.get?_empty] at hc hp
  split at hc
  · cases hc
    simp only [if_neg (by decide : (1 : B256) ≠ 2), if_true, Option.some.injEq] at hp
    rw [← hp]
    decide
  · split at hc
    · cases hc
      simp [B256.ZERO] at hp
    · cases hc

/-- A vote for block `2`, from block `1`. -/
def voteForTwo : AttestationData :=
  { slot := 2, head := ⟨2, 2⟩, target := ⟨2, 2⟩, source := ⟨1, 1⟩ }

/-- From block `1`, with the vote for block `2`. -/
theorem twoBlocks_reference_head :
    SlotOrdered twoBlockStore.childrenIndex ∧ (1 : B256) ≠ B256.ZERO ∧
      (twoBlockStore.childrenIndex.get? 1).isSome ∧
      ∃ head entry, twoBlockStore.childrenIndex.get? head = some entry ∧
        twoBlockStore.computeLmdGhostHead [voteForTwo] 1 0 = .ok (head, entry.slot) ∧
        Descends twoBlockStore.childrenIndex 1 head ∧
        ∀ h, IsReferenceHead twoBlockStore.childrenIndex [voteForTwo] 0 1 h ↔ h = head :=
  ⟨twoBlockStore_slotOrdered, by decide, rfl,
    computeLmdGhostHead_eq_reference twoBlockStore _ 1 0 twoBlockStore_slotOrdered (by decide)
      rfl⟩

/-! ## The zero root -/

/-- A children index holding only the zero root, at slot 0 under a parent outside the index. -/
def zeroRootStore : Store :=
  { Store.empty with childrenIndex := AssocMap.empty.insert B256.ZERO ⟨0, 1⟩ }

/-- From the zero root the reference stays at the zero root, which the index holds, but the
source replaces it by the oldest block of the slot index, here none, and fails. -/
theorem zeroRoot_start_replaced :
    SlotOrdered zeroRootStore.childrenIndex ∧
      (zeroRootStore.childrenIndex.get? B256.ZERO).isSome ∧
      IsReferenceHead zeroRootStore.childrenIndex [] 0 B256.ZERO B256.ZERO ∧
      zeroRootStore.computeLmdGhostHead [] B256.ZERO 0 =
        .error "No blocks found to calculate fork choice" := by
  refine ⟨?_, rfl, ⟨⟨0, 1⟩, [], rfl, .leaf fun c hc => hc.2.1 rfl⟩, rfl⟩
  intro c e pe hc hp
  simp only [zeroRootStore, AssocMap.get?_insert, AssocMap.get?_empty] at hc hp
  split at hc
  · cases hc
    simp [B256.ZERO] at hp
  · cases hc

end Ream.ForkChoice
