import Mathlib

/-!
# Greedy covers

`IsGreedyCover cover pool c l`: distinct elements of the pool, each covering a point none before it
covers, such that no element left covers anything new. A stopped run is one, and so is one that
takes an element with a new point and goes on (`IsGreedyCover.cons`).
-/

namespace GreedyCover

variable {α β : Type} [DecidableEq β] (cover : α → Finset β)

/-- The points covered by `c` and the elements of `l`. -/
def coverOf (c : Finset β) (l : List α) : Finset β :=
  l.foldl (fun c x => c ∪ cover x) c

/-- Each element covers a point not covered by `c` and the elements before it. -/
def AddsNew : Finset β → List α → Prop
  | _, [] => True
  | c, x :: l => ¬ cover x ⊆ c ∧ AddsNew (c ∪ cover x) l

variable {cover}

@[simp] theorem coverOf_nil (c : Finset β) : coverOf cover c [] = c := rfl

@[simp] theorem coverOf_cons (c : Finset β) (x : α) (l : List α) :
    coverOf cover c (x :: l) = coverOf cover (c ∪ cover x) l := rfl

@[simp] theorem addsNew_nil (c : Finset β) : AddsNew cover c [] := trivial

@[simp] theorem addsNew_cons {c : Finset β} {x : α} {l : List α} :
    AddsNew cover c (x :: l) ↔ ¬ cover x ⊆ c ∧ AddsNew cover (c ∪ cover x) l := Iff.rfl

theorem mem_coverOf {v : β} : ∀ {c : Finset β} {l : List α},
    v ∈ coverOf cover c l ↔ v ∈ c ∨ ∃ x ∈ l, v ∈ cover x
  | c, [] => by simp
  | c, x :: l => by
    rw [coverOf_cons, mem_coverOf, Finset.mem_union]
    simp only [List.mem_cons, exists_eq_or_imp]
    tauto

theorem subset_coverOf (c : Finset β) (l : List α) : c ⊆ coverOf cover c l :=
  fun _ hv => mem_coverOf.mpr (.inl hv)

theorem cover_subset_coverOf {x : α} {l : List α} (hx : x ∈ l) (c : Finset β) :
    cover x ⊆ coverOf cover c l :=
  fun _ hv => mem_coverOf.mpr (.inr ⟨x, hx, hv⟩)

variable (cover) in
/-- `l` is a greedy cover of `pool` from `c`. -/
structure IsGreedyCover (pool : List α) (c : Finset β) (l : List α) : Prop where
  nodup : l.Nodup
  subset : ∀ x ∈ l, x ∈ pool
  addsNew : AddsNew cover c l
  maximal : ∀ x ∈ pool, x ∉ l → cover x ⊆ coverOf cover c l

theorem IsGreedyCover.nil {pool : List α} {c : Finset β} (h : ∀ x ∈ pool, cover x ⊆ c) :
    IsGreedyCover cover pool c [] :=
  ⟨List.nodup_nil, by simp, trivial, fun x hx _ => h x hx⟩

/-- Taking an element of a pool without repetitions that covers a new point, and going on
greedily over the rest, is a greedy cover of the pool. -/
theorem IsGreedyCover.cons {pool rest l : List α} {c : Finset β} {x : α}
    (hperm : (x :: rest).Perm pool) (hpool : pool.Nodup) (hnew : ¬ cover x ⊆ c)
    (h : IsGreedyCover cover rest (c ∪ cover x) l) : IsGreedyCover cover pool c (x :: l) := by
  have hrest : (x :: rest).Nodup := hperm.nodup_iff.mpr hpool
  have hx : x ∉ rest := (List.nodup_cons.mp hrest).1
  refine ⟨List.nodup_cons.mpr ⟨fun hxl => hx (h.subset x hxl), h.nodup⟩, ?_, ⟨hnew, h.addsNew⟩, ?_⟩
  · intro y hy
    rcases List.mem_cons.mp hy with rfl | hy
    · exact hperm.subset List.mem_cons_self
    · exact hperm.subset (List.mem_cons_of_mem x (h.subset y hy))
  · intro y hy hyl
    have hyrest : y ∈ rest := by
      rcases List.mem_cons.mp (hperm.symm.subset hy) with rfl | hyrest
      · exact absurd List.mem_cons_self hyl
      · exact hyrest
    rw [coverOf_cons]
    exact h.maximal y hyrest fun hyl' => hyl (List.mem_cons_of_mem x hyl')

end GreedyCover
