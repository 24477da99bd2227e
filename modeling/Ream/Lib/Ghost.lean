import Mathlib

/-!
# Greedy descent in a tree

`Descent child key b path h`: the descent from `b` to the child with the largest key ends at `h`;
with an injective key it is unique (`Descent.unique`). `pick` is the step of `max_by_key`, and
`countP_lt_countP` bounds the fuel of a walk whose measure grows.
-/

namespace Ghost

variable {α κ : Type} [LinearOrder κ]

/-! ## The largest key of a list -/

/-- One step of `max_by_key`: the new element when its key is at least the best one's. -/
def pick (key : α → κ) (best x : α) : α := if key best ≤ key x then x else best

theorem pick_of_le {key : α → κ} {best x : α} (h : key best ≤ key x) : pick key best x = x :=
  if_pos h

theorem pick_of_lt {key : α → κ} {best x : α} (h : key x < key best) :
    pick key best x = best :=
  if_neg (not_le.mpr h)

theorem pick_mem (key : α → κ) (best x : α) : pick key best x = best ∨ pick key best x = x := by
  unfold pick
  split
  · exact .inr rfl
  · exact .inl rfl

theorem le_pick_left (key : α → κ) (best x : α) : key best ≤ key (pick key best x) := by
  unfold pick
  split
  · assumption
  · exact le_rfl

theorem le_pick_right (key : α → κ) (best x : α) : key x ≤ key (pick key best x) := by
  unfold pick
  split
  · exact le_rfl
  · exact le_of_lt (not_le.mp ‹_›)

theorem foldl_pick_mem (key : α → κ) : ∀ (x : α) (l : List α), l.foldl (pick key) x ∈ x :: l
  | x, [] => List.mem_cons_self
  | x, y :: l => by
    rw [List.foldl_cons]
    rcases List.mem_cons.mp (foldl_pick_mem key (pick key x y) l) with h | h
    · rw [h]
      rcases pick_mem key x y with hx | hy
      · rw [hx]
        exact List.mem_cons_self
      · rw [hy]
        exact List.mem_cons_of_mem x List.mem_cons_self
    · exact List.mem_cons_of_mem x (List.mem_cons_of_mem y h)

theorem le_foldl_pick (key : α → κ) :
    ∀ (x : α) (l : List α), ∀ y ∈ x :: l, key y ≤ key (l.foldl (pick key) x)
  | x, [], y, hy => by
    rw [List.mem_singleton.mp hy]
    exact le_rfl
  | x, z :: l, y, hy => by
    rw [List.foldl_cons]
    have ih := le_foldl_pick key (pick key x z) l
    rcases List.mem_cons.mp hy with rfl | hy
    · exact (le_pick_left key y z).trans (ih _ List.mem_cons_self)
    · rcases List.mem_cons.mp hy with rfl | hy
      · exact (le_pick_right key x y).trans (ih _ List.mem_cons_self)
      · exact ih y (List.mem_cons_of_mem _ hy)

/-! ## Descents -/

variable (child : α → α → Prop) (key : α → κ)

/-- `c` is the child of `b` with the largest key. -/
def IsBestChild (b c : α) : Prop := child b c ∧ ∀ c', child b c' → key c' ≤ key c

/-- The descent from `b` takes the children `path` and ends at `h`, which has none. -/
inductive Descent : α → List α → α → Prop where
  | leaf {b : α} : (∀ c, ¬ child b c) → Descent b [] b
  | step {b c h : α} {path : List α} :
      IsBestChild child key b c → Descent c path h → Descent b (c :: path) h

variable {child key}

theorem IsBestChild.eq (hkey : Function.Injective key) {b c₁ c₂ : α}
    (h₁ : IsBestChild child key b c₁) (h₂ : IsBestChild child key b c₂) : c₁ = c₂ :=
  hkey (le_antisymm (h₂.2 c₁ h₁.1) (h₁.2 c₂ h₂.1))

theorem Descent.unique (hkey : Function.Injective key) {b h₁ h₂ : α} {p₁ p₂ : List α}
    (d₁ : Descent child key b p₁ h₁) (d₂ : Descent child key b p₂ h₂) : p₁ = p₂ ∧ h₁ = h₂ := by
  induction d₁ generalizing p₂ with
  | leaf hleaf =>
    cases d₂ with
    | leaf _ => exact ⟨rfl, rfl⟩
    | step hbest _ => exact absurd hbest.1 (hleaf _)
  | step hbest₁ _ ih =>
    cases d₂ with
    | leaf hleaf => exact absurd hbest₁.1 (hleaf _)
    | step hbest₂ d₂ =>
      obtain rfl := hbest₁.eq hkey hbest₂
      obtain ⟨rfl, rfl⟩ := ih d₂
      exact ⟨rfl, rfl⟩

theorem Descent.reflTransGen {b h : α} {path : List α} (d : Descent child key b path h) :
    Relation.ReflTransGen child b h := by
  induction d with
  | leaf _ => exact .refl
  | step hbest _ ih => exact .head hbest.1 ih

/-! ## Measures along walks -/

/-- A relation that keeps `P` and raises `m` at each step: a block reached from `x` with
`P x` is `x`, or has `P` and a larger measure. -/
theorem reflTransGen_lt {β : Type} [Preorder β] {R : α → α → Prop} {P : α → Prop} {m : α → β}
    (hstep : ∀ x y, R x y → P x → P y ∧ m x < m y) {x y : α} (h : Relation.ReflTransGen R x y)
    (hx : P x) : x = y ∨ (P y ∧ m x < m y) := by
  induction h with
  | refl => exact .inl rfl
  | tail _ hyz ih =>
    rcases ih with rfl | ⟨hy, hlt⟩
    · exact .inr (hstep _ _ hyz hx)
    · obtain ⟨hz, hlt'⟩ := hstep _ _ hyz hy
      exact .inr ⟨hz, hlt.trans hlt'⟩

theorem countP_lt_countP {l : List α} {p q : α → Bool} (hpq : ∀ x ∈ l, p x → q x) {x : α}
    (hx : x ∈ l) (hq : q x) (hp : ¬ p x) : l.countP p < l.countP q := by
  induction l with
  | nil => cases hx
  | cons y l ih =>
    have hpq' : ∀ z ∈ l, p z → q z := fun z hz => hpq z (List.mem_cons_of_mem y hz)
    rw [List.countP_cons, List.countP_cons]
    rcases List.mem_cons.mp hx with rfl | hx
    · have hle := List.countP_mono_left hpq'
      simp only [hq, hp, Bool.false_eq_true, if_true, if_false]
      omega
    · have hlt := ih hpq' hx
      by_cases hpy : p y
      · simp only [hpy, hpq y List.mem_cons_self hpy, if_true]
        omega
      · by_cases hqy : q y <;> simp only [hpy, hqy, Bool.false_eq_true, if_true, if_false] <;> omega

/-- The elements of a list whose measure is at or below `n`: what a walk down the measure can
still visit. -/
def countAtOrBelow (l : List α) (measure : α → Nat) (n : Nat) : Nat :=
  l.countP fun x => decide (measure x ≤ n)

theorem countAtOrBelow_pos {l : List α} {measure : α → Nat} {x : α} (hx : x ∈ l) :
    0 < countAtOrBelow l measure (measure x) :=
  List.countP_pos_iff.mpr ⟨x, hx, by simp⟩

theorem countAtOrBelow_lt {l : List α} {measure : α → Nat} {x : α} {n : Nat} (hx : x ∈ l)
    (hlt : n < measure x) : countAtOrBelow l measure n < countAtOrBelow l measure (measure x) :=
  countP_lt_countP (fun y _ hy => by simp at hy ⊢; omega) hx (by simp) (by simp; omega)

theorem countAtOrBelow_le_length (l : List α) (measure : α → Nat) (n : Nat) :
    countAtOrBelow l measure n ≤ l.length :=
  List.countP_le_length

end Ghost
