import Mathlib

/-!
# Finite maps as association lists with distinct keys

A hash map whose iteration order nothing depends on is an association list whose keys are
pairwise distinct; the structure carries that fact. `insert` replaces the value of a key
already present, `erase` removes a key, `retain` keeps the entries a predicate accepts.
Every lookup lemma is stated through `get?`, so callers never unfold the list.
-/

/-- A finite map: a list of entries with no key twice. -/
structure AssocMap (α β : Type) where
  entries : List (α × β)
  nodup : (entries.map Prod.fst).Nodup

namespace AssocMap

variable {α β : Type}

def empty : AssocMap α β := ⟨[], List.nodup_nil⟩

def keys (m : AssocMap α β) : List α := m.entries.map Prod.fst

def size (m : AssocMap α β) : Nat := m.entries.length

@[simp] theorem keys_empty : (empty : AssocMap α β).keys = [] := rfl

theorem keys_nodup (m : AssocMap α β) : m.keys.Nodup := m.nodup

theorem size_eq_length_keys (m : AssocMap α β) : m.size = m.keys.length := by
  simp [size, keys]

/-- A loop whose every step adds only keys with a property yields, besides its start's keys,
only keys with it. -/
theorem mem_keys_foldl {γ : Type} {f : AssocMap α β → γ → AssocMap α β} {P : α → Prop} :
    ∀ {l : List γ}, (∀ m, ∀ x ∈ l, ∀ k ∈ (f m x).keys, k ∈ m.keys ∨ P k) →
      ∀ (m : AssocMap α β), ∀ k ∈ (l.foldl f m).keys, k ∈ m.keys ∨ P k
  | [], _, _, _, hk => .inl hk
  | x :: l, hf, m, k, hk => by
    rw [List.foldl_cons] at hk
    have hrest := mem_keys_foldl (fun m' y hy => hf m' y (List.mem_cons_of_mem x hy)) _ k hk
    rcases hrest with hk' | hP
    · exact hf m x List.mem_cons_self k hk'
    · exact .inr hP

private theorem nodup_filter (l : List (α × β)) (p : α × β → Bool)
    (h : (l.map Prod.fst).Nodup) : ((l.filter p).map Prod.fst).Nodup :=
  (List.Sublist.map Prod.fst List.filter_sublist).nodup h

/-- Keep the entries whose key and value the predicate accepts. -/
def retain (m : AssocMap α β) (p : α → β → Bool) : AssocMap α β :=
  ⟨m.entries.filter (fun e => p e.1 e.2), nodup_filter _ _ m.nodup⟩

/-- The values, in the order of `keys`. -/
def values (m : AssocMap α β) : List β := m.entries.map Prod.snd

/-- Rewrite every value in place (`values_mut`), keeping the keys. -/
def mapValues (m : AssocMap α β) (f : α → β → β) : AssocMap α β :=
  ⟨m.entries.map (fun e => (e.1, f e.1 e.2)), by rw [List.map_map]; exact m.nodup⟩

@[simp] theorem keys_mapValues (m : AssocMap α β) (f : α → β → β) :
    (m.mapValues f).keys = m.keys := by
  simp [mapValues, keys]

@[simp] theorem size_mapValues (m : AssocMap α β) (f : α → β → β) :
    (m.mapValues f).size = m.size := by
  simp [mapValues, size]

theorem size_eq_zero_iff (m : AssocMap α β) : m.size = 0 ↔ m.keys = [] := by
  simp [size, keys]

variable [DecidableEq α]

/-- The value stored under a key. -/
def get? (m : AssocMap α β) (k : α) : Option β :=
  (m.entries.find? (fun e => e.1 = k)).map Prod.snd

def erase (m : AssocMap α β) (k : α) : AssocMap α β :=
  m.retain (fun k' _ => k' ≠ k)

/-- Store a value under a key, replacing the one it had. -/
def insert (m : AssocMap α β) (k : α) (v : β) : AssocMap α β :=
  ⟨(k, v) :: (m.erase k).entries, by
    refine List.nodup_cons.mpr ⟨?_, (m.erase k).nodup⟩
    simp [erase, retain]⟩

/-- `entry(k).or_insert(d)` read back: the stored value, or the default. -/
def getD (m : AssocMap α β) (k : α) (d : β) : β := (m.get? k).getD d

@[simp] theorem get?_empty (k : α) : (empty : AssocMap α β).get? k = none := rfl

private theorem find?_filter_key (l : List (α × β)) (h : (l.map Prod.fst).Nodup)
    (p : α × β → Bool) (k : α) :
    ((l.filter p).find? (fun e => e.1 = k)) =
      (l.find? (fun e => e.1 = k)).filter p := by
  induction l with
  | nil => rfl
  | cons e l ih =>
    have hl : (l.map Prod.fst).Nodup := (List.nodup_cons.mp h).2
    have he : e.1 ∉ l.map Prod.fst := (List.nodup_cons.mp h).1
    by_cases hk : e.1 = k
    · have hnone : l.find? (fun e => e.1 = k) = none := by
        rw [List.find?_eq_none]
        intro x hx hxk
        exact he (hk ▸ (by simpa using hxk) ▸ List.mem_map_of_mem hx)
      have hnone' : (l.filter p).find? (fun e => e.1 = k) = none := by
        rw [← Option.filter_none p, ← hnone]
        exact ih hl
      by_cases hp : p e
      · simp [hp, hk, Option.filter]
      · simp [hp, hk, hnone', Option.filter]
    · by_cases hp : p e
      · simp [hp, hk, ih hl]
      · simp [hp, hk, ih hl]

theorem get?_retain (m : AssocMap α β) (p : α → β → Bool) (k : α) :
    (m.retain p).get? k = (m.get? k).filter (p k) := by
  unfold get? retain
  rw [find?_filter_key m.entries m.nodup]
  cases hf : m.entries.find? (fun e => e.1 = k) with
  | none => rfl
  | some e =>
    have hk : e.1 = k := by simpa using List.find?_some hf
    subst hk
    simp [Option.filter]

@[simp] theorem get?_erase (m : AssocMap α β) (k k' : α) :
    (m.erase k).get? k' = if k' = k then none else m.get? k' := by
  unfold erase
  rw [get?_retain]
  by_cases h : k' = k
  · subst h
    cases m.get? k' <;> simp [Option.filter]
  · cases m.get? k' <;> simp [Option.filter, h]

@[simp] theorem get?_insert (m : AssocMap α β) (k k' : α) (v : β) :
    (m.insert k v).get? k' = if k' = k then some v else m.get? k' := by
  by_cases h : k' = k
  · subst h
    simp [insert, get?]
  · rw [if_neg h]
    have herase : (m.erase k).get? k' = m.get? k' := by rw [get?_erase, if_neg h]
    rw [← herase]
    simp [insert, get?, Ne.symm h]

theorem mem_keys (m : AssocMap α β) (k : α) : k ∈ m.keys ↔ (m.get? k).isSome := by
  simp only [keys, get?, List.mem_map, Option.isSome_map, List.find?_isSome]
  constructor
  · rintro ⟨e, he, rfl⟩
    exact ⟨e, he, by simp⟩
  · rintro ⟨e, he, hk⟩
    exact ⟨e, he, by simpa using hk⟩

theorem mem_entries_iff (m : AssocMap α β) (k : α) (v : β) :
    (k, v) ∈ m.entries ↔ m.get? k = some v := by
  unfold get?
  constructor
  · intro hmem
    obtain ⟨e, hfind⟩ : ∃ e, m.entries.find? (fun e => e.1 = k) = some e :=
      Option.isSome_iff_exists.mp (List.find?_isSome.mpr ⟨_, hmem, by simp⟩)
    have he : e ∈ m.entries := List.mem_of_find?_eq_some hfind
    have hk : e.1 = k := by simpa using List.find?_some hfind
    have heq : e = (k, v) := List.inj_on_of_nodup_map m.nodup he hmem hk
    simp [hfind, heq]
  · intro hget
    obtain ⟨e, hfind, rfl⟩ := Option.map_eq_some_iff.mp hget
    have hk : e.1 = k := by simpa using List.find?_some hfind
    rw [← hk]
    exact List.mem_of_find?_eq_some hfind

theorem getD_eq (m : AssocMap α β) (k : α) (d : β) : m.getD k d = (m.get? k).getD d := rfl

theorem mem_keys_insert (m : AssocMap α β) (k k' : α) (v : β) :
    k' ∈ (m.insert k v).keys ↔ k' = k ∨ k' ∈ m.keys := by
  rw [mem_keys, mem_keys, get?_insert]
  by_cases h : k' = k <;> simp [h]

theorem mem_keys_retain {m : AssocMap α β} {p : α → β → Bool} {k : α} :
    k ∈ (m.retain p).keys ↔ ∃ v, m.get? k = some v ∧ p k v = true := by
  rw [mem_keys, get?_retain]
  cases m.get? k <;> simp [Option.filter]

/-- Inserting, one entry at a time from an entry list with distinct keys, a value made from
the entry and the value its key has: a key of the list gets the value made from its entry and
its value before the loop, the others keep theirs. -/
private theorem get?_foldl_insert_entries {γ : Type} (g : Option β → γ → β) (k : α) :
    ∀ (l : List (α × γ)) (m : AssocMap α β), (l.map Prod.fst).Nodup →
      (l.foldl (fun m e => m.insert e.1 (g (m.get? e.1) e.2)) m).get? k =
        (((l.find? fun e => e.1 = k).map Prod.snd).map (g (m.get? k))).or (m.get? k)
  | [], _, _ => rfl
  | e :: l, m, h => by
    have hl : (l.map Prod.fst).Nodup := (List.nodup_cons.mp h).2
    rw [List.foldl_cons, get?_foldl_insert_entries g k l _ hl]
    by_cases hk : e.1 = k
    · have hnone : l.find? (fun e => e.1 = k) = none := by
        rw [List.find?_eq_none]
        intro x hx hxk
        exact (List.nodup_cons.mp h).1 (hk ▸ (by simpa using hxk) ▸ List.mem_map_of_mem hx)
      simp [hnone, hk]
    · have hk' : k ≠ e.1 := Ne.symm hk
      simp [hk, hk']

theorem get?_foldl_insertAppend {γ : Type} (n m : AssocMap α (List γ)) (k : α) :
    (n.entries.foldl (fun m e => m.insert e.1 (m.getD e.1 [] ++ e.2)) m).get? k =
      ((n.get? k).map fun ps => m.getD k [] ++ ps).or (m.get? k) :=
  get?_foldl_insert_entries (fun old ps => old.getD [] ++ ps) k n.entries m n.nodup

/-- `contains_key`. -/
def contains (m : AssocMap α β) (k : α) : Bool := (m.get? k).isSome

/-- `collect` into a map: the pairs inserted in turn, a later value replacing an earlier one. -/
def ofList (pairs : List (α × β)) : AssocMap α β :=
  pairs.foldl (fun m p => m.insert p.1 p.2) empty

theorem size_ne_zero_of_get? {m : AssocMap α β} {k : α} {v : β} (h : m.get? k = some v) :
    m.size ≠ 0 := by
  rw [Ne, size_eq_zero_iff]
  intro hkeys
  have hk : k ∈ m.keys := (mem_keys m k).mpr (by rw [h]; rfl)
  rw [hkeys] at hk
  cases hk

theorem size_insert_ne_zero (m : AssocMap α β) (k : α) (v : β) : (m.insert k v).size ≠ 0 :=
  size_ne_zero_of_get? (by rw [get?_insert, if_pos rfl])

/-- `extend`: the entries of `n` inserted in turn, each replacing the value its key had. -/
def extend (m n : AssocMap α β) : AssocMap α β := n.entries.foldl (fun m e => m.insert e.1 e.2) m

theorem get?_extend (m n : AssocMap α β) (k : α) :
    (m.extend n).get? k = (n.get? k).or (m.get? k) := by
  have h := get?_foldl_insert_entries (fun (_ : Option β) v => v) k n.entries m n.nodup
  simp only [Option.map_id'] at h
  exact h

theorem size_extend_ne_zero (m : AssocMap α β) {n : AssocMap α β} (hn : n.size ≠ 0) :
    (m.extend n).size ≠ 0 := by
  have hne : n.entries ≠ [] := fun h => hn (by rw [size, h]; rfl)
  obtain ⟨⟨k, v⟩, rest, hentries⟩ := List.exists_cons_of_ne_nil hne
  have hget : n.get? k = some v := (mem_entries_iff n k v).mp (by rw [hentries]; exact List.mem_cons_self)
  exact size_ne_zero_of_get? (v := v) (by rw [get?_extend, hget]; rfl)

private theorem get?_foldl_insert_map (f : α → β) (k : α) :
    ∀ (l : List α) (m : AssocMap α β),
      ((l.map fun a => (a, f a)).foldl (fun m p => m.insert p.1 p.2) m).get? k =
        if k ∈ l then some (f k) else m.get? k
  | [], m => by simp
  | a :: l, m => by
    rw [List.map_cons, List.foldl_cons, get?_foldl_insert_map f k l, get?_insert]
    by_cases hl : k ∈ l
    · simp [hl]
    · by_cases ha : k = a
      · simp [ha]
      · simp [hl, ha]

theorem get?_ofList_map (f : α → β) (l : List α) (k : α) :
    (ofList (l.map fun a => (a, f a))).get? k = if k ∈ l then some (f k) else none :=
  get?_foldl_insert_map f k l empty

theorem get?_ofList_append_entries (m n : AssocMap α β) (k : α) :
    (ofList (m.entries ++ n.entries)).get? k = (n.get? k).or (m.get? k) := by
  have hsplit : ofList (m.entries ++ n.entries) = (empty.extend m).extend n := by
    unfold ofList extend
    rw [List.foldl_append]
  rw [hsplit, get?_extend, get?_extend, get?_empty, Option.or_none]

end AssocMap
