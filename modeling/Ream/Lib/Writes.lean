import Mathlib
import Ream.Lib.Loop

/-!
# Writes into a list, and what they keep

`List.modify`, `List.updateFirst`, appends and `mapM`: where the records of the new list come
from, so that a property of every record survives a write whose new records have it.
-/

namespace List

variable {α : Type} {f : α → α} {l : List α} {i : Nat}

theorem mem_modify {x : α} : ∀ {l : List α} {i : Nat}, x ∈ l.modify i f →
    x ∈ l ∨ ∃ y, l[i]? = some y ∧ x = f y
  | [], _, h => by simp at h
  | a :: l, 0, h => by
    rw [modify_zero_cons, mem_cons] at h
    rcases h with rfl | h
    · exact .inr ⟨a, rfl, rfl⟩
    · exact .inl (mem_cons_of_mem a h)
  | a :: l, i + 1, h => by
    rw [modify_succ_cons, mem_cons] at h
    rcases h with rfl | h
    · exact .inl mem_cons_self
    · rcases mem_modify h with h | ⟨y, hy, rfl⟩
      · exact .inl (mem_cons_of_mem a h)
      · exact .inr ⟨y, hy, rfl⟩

theorem forall_mem_modify {P : α → Prop} (hl : ∀ x ∈ l, P x)
    (hf : ∀ y, l[i]? = some y → P (f y)) : ∀ x ∈ l.modify i f, P x := by
  intro x hx
  rcases mem_modify hx with hx | ⟨y, hy, rfl⟩
  · exact hl x hx
  · exact hf y hy

/-- Rewrite the first element that `f` accepts and return what `f` returned with it: a loop over
the records that changes one of them and stops there. -/
def updateFirst {γ : Type} (f : α → Option (α × γ)) : List α → Option (List α × γ)
  | [] => none
  | a :: l =>
    match f a with
    | some (a', c) => some (a' :: l, c)
    | none => (updateFirst f l).map fun (l', c) => (a :: l', c)

theorem updateFirst_eq_some {γ : Type} {f : α → Option (α × γ)} :
    ∀ {l l' : List α} {c : γ}, l.updateFirst f = some (l', c) →
      ∃ i a a', l[i]? = some a ∧ f a = some (a', c) ∧ l' = l.set i a'
  | [], _, _, h => nomatch h
  | a :: l, l', c, h => by
    unfold updateFirst at h
    cases hfa : f a with
    | some r =>
      obtain ⟨a', c'⟩ := r
      simp only [hfa, Option.some.injEq, Prod.mk.injEq] at h
      obtain ⟨rfl, rfl⟩ := h
      exact ⟨0, a, a', rfl, hfa, rfl⟩
    | none =>
      simp only [hfa] at h
      obtain ⟨⟨l'', c''⟩, hrest, heq⟩ := Option.map_eq_some_iff.mp h
      simp only [Prod.mk.injEq] at heq
      obtain ⟨rfl, rfl⟩ := heq
      obtain ⟨i, b, b', hb, hfb, rfl⟩ := updateFirst_eq_some hrest
      exact ⟨i + 1, b, b', hb, hfb, rfl⟩

theorem map_set_of_key_eq {δ : Type} {l : List α} {i : Nat} {a a' : α} {key : α → δ}
    (ha : l[i]? = some a) (hkey : key a' = key a) : (l.set i a').map key = l.map key := by
  obtain ⟨hi, rfl⟩ := getElem?_eq_some_iff.mp ha
  rw [map_set, hkey]
  have hi' : i < (l.map key).length := by rw [length_map]; exact hi
  rw [← getElem_map key, set_getElem_self hi']
  exact hi'

theorem key_not_mem_map_eraseIdx {δ : Type} [DecidableEq δ] {l : List α} {i : Nat} {a : α}
    {key : α → δ} (hnodup : (l.map key).Nodup) (ha : l[i]? = some a) :
    key a ∉ (l.eraseIdx i).map key := by
  obtain ⟨hi, rfl⟩ := getElem?_eq_some_iff.mp ha
  have hi' : i < (l.map key).length := by rw [length_map]; exact hi
  rw [← eraseIdx_map, ← hnodup.erase_getElem i hi', getElem_map]
  exact hnodup.not_mem_erase

theorem map_of_updateFirst_eq_some {γ δ : Type} {f : α → Option (α × γ)} {l l' : List α} {c : γ}
    {key : α → δ} (hkey : ∀ a a' c, f a = some (a', c) → key a' = key a)
    (h : l.updateFirst f = some (l', c)) : l'.map key = l.map key := by
  obtain ⟨i, a, a', ha, hfa, rfl⟩ := updateFirst_eq_some h
  exact map_set_of_key_eq ha (hkey _ _ _ hfa)

theorem forall_mem_of_updateFirst_eq_some {γ : Type} {f : α → Option (α × γ)} {l l' : List α}
    {c : γ} {P : α → Prop} (hl : ∀ x ∈ l, P x)
    (hf : ∀ a a' c, a ∈ l → f a = some (a', c) → P a') (h : l.updateFirst f = some (l', c)) :
    ∀ x ∈ l', P x := by
  obtain ⟨i, a, a', ha, hfa, rfl⟩ := updateFirst_eq_some h
  intro x hx
  rcases mem_or_eq_of_mem_set hx with hx | rfl
  · exact hl x hx
  · exact hf a x c (mem_of_getElem? ha) hfa

/-- The record at a position after a write in place: the old one, or the rewritten one at the
position written. -/
theorem getElem?_modify_eq_some {j : Nat} {y : α} (h : (l.modify i f)[j]? = some y) :
    ∃ x, l[j]? = some x ∧ y = if i = j then f x else x := by
  rw [getElem?_modify, Option.map_eq_map, Option.map_eq_some_iff] at h
  obtain ⟨x, hx, rfl⟩ := h
  exact ⟨x, hx, rfl⟩

theorem getElem?_modify_of_eq_some {j : Nat} {x : α} (h : l[j]? = some x) :
    (l.modify i f)[j]? = some (if i = j then f x else x) := by
  rw [getElem?_modify, h]
  rfl

/-- The sum of a measure over a list after a write in place changes by what the write changed at
the position. -/
theorem sum_map_modify (g : α → Nat) : ∀ {l : List α} {i : Nat} (x : α), l[i]? = some x →
    ((l.modify i f).map g).sum + g x = (l.map g).sum + g (f x)
  | [], _, _, h => by simp at h
  | a :: l, 0, x, h => by
    rw [getElem?_cons_zero, Option.some_inj] at h
    subst h
    rw [modify_zero_cons, map_cons, map_cons, sum_cons, sum_cons]
    omega
  | a :: l, i + 1, x, h => by
    rw [getElem?_cons_succ] at h
    have ih := sum_map_modify g x h
    rw [modify_succ_cons, map_cons, map_cons, sum_cons, sum_cons]
    omega

theorem le_sum_map_of_getElem? (g : α → Nat) {l : List α} {i : Nat} {x : α} (h : l[i]? = some x) :
    g x ≤ (l.map g).sum :=
  single_le_sum (fun _ _ => Nat.zero_le _) _ (mem_map_of_mem (mem_of_getElem? h))

theorem getElem_not_mem_take (hl : l.Nodup) {k : Nat} (hk : k < l.length) : l[k] ∉ l.take k := by
  intro hmem
  have hprefix := hl.sublist (List.take_sublist (k + 1) l)
  rw [List.take_add_one, List.getElem?_eq_getElem hk, Option.toList_some] at hprefix
  exact (List.nodup_append.mp hprefix).2.2 _ hmem _ (List.mem_singleton_self _) rfl

end List

namespace Loop

variable {ε α β : Type} {f : α → Except ε β}

theorem length_of_mapM_eq_ok : ∀ {l : List α} {r : List β}, l.mapM f = .ok r → r.length = l.length
  | [], r, h => by
    rw [List.mapM_nil, Except.pure_eq_ok] at h
    rw [← h]
    rfl
  | a :: l, r, h => by
    simp only [List.mapM_cons, Except.bind_eq_ok, Except.pure_eq_ok] at h
    obtain ⟨b, -, rest, hrest, rfl⟩ := h
    rw [List.length_cons, List.length_cons, length_of_mapM_eq_ok hrest]

theorem getElem?_of_mapM_eq_ok : ∀ {l : List α} {r : List β}, l.mapM f = .ok r →
    ∀ (i : Nat) (b : β), r[i]? = some b → ∃ a, l[i]? = some a ∧ f a = .ok b
  | [], r, h, i, b, hb => by
    rw [List.mapM_nil, Except.pure_eq_ok] at h
    subst h
    simp at hb
  | a :: l, r, h, i, b, hb => by
    simp only [List.mapM_cons, Except.bind_eq_ok, Except.pure_eq_ok] at h
    obtain ⟨b₀, hb₀, rest, hrest, rfl⟩ := h
    cases i with
    | zero =>
      rw [List.getElem?_cons_zero, Option.some_inj] at hb
      exact ⟨a, rfl, hb ▸ hb₀⟩
    | succ i =>
      rw [List.getElem?_cons_succ] at hb
      exact getElem?_of_mapM_eq_ok hrest i b hb

end Loop
