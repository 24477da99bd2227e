import Mathlib

/-!
# Bounded SSZ lists and bit lists

`VariableList`, `BitList`, `BitVector` and `FixedVector` carry their bound, so a list longer than
`N` cannot be built; growing past it or indexing out of range is an error.
-/

namespace Ssz

/-- The one failure of the bounded containers: a position or a length out of range. -/
inductive Error where
  | OutOfBounds (i len : Nat)
  deriving DecidableEq, Repr

/-- The `{err:?}` rendering of an `Error`, as the callers' messages embed it. -/
def Error.debug : Error → String
  | .OutOfBounds i len => s!"OutOfBounds \x7b i: {i}, len: {len} \x7d"

/-- A list of at most `N` elements. -/
structure VariableList (α : Type) (N : Nat) where
  data : List α
  bound : data.length ≤ N
  deriving DecidableEq, Repr

namespace VariableList

variable {α : Type} {N : Nat}

def empty : VariableList α N := ⟨[], Nat.zero_le N⟩

def len (l : VariableList α N) : Nat := l.data.length

/-- `VariableList::new`: a vector longer than the bound is refused. -/
def new (v : List α) : Except Error (VariableList α N) :=
  if h : v.length ≤ N then .ok ⟨v, h⟩ else .error (.OutOfBounds v.length N)

/-- `push` appends while there is room, and reports the position it would have taken. -/
def push (l : VariableList α N) (x : α) : Except Error (VariableList α N) :=
  if h : l.data.length < N then .ok ⟨l.data ++ [x], by simp; omega⟩
  else .error (.OutOfBounds (l.data.length + 1) N)

@[simp] theorem empty_data : (empty : VariableList α N).data = [] := rfl

@[simp] theorem len_empty : (empty : VariableList α N).len = 0 := rfl

theorem push_ok {l : VariableList α N} {x : α} {l' : VariableList α N}
    (h : l.push x = .ok l') : l'.data = l.data ++ [x] := by
  unfold push at h
  split at h
  · cases h; rfl
  · cases h

theorem push_ok_iff {l : VariableList α N} {x : α} :
    (∃ l', l.push x = .ok l') ↔ l.data.length < N := by
  unfold push
  split
  · simp_all
  · simp_all

end VariableList

/-- A list of at most `N` bits. -/
structure BitList (N : Nat) where
  bits : List Bool
  bound : bits.length ≤ N
  deriving DecidableEq, Repr

/-- Pointwise `or` of two bit lists, the shorter one read as padded with `false`. -/
def orPad : List Bool → List Bool → List Bool
  | [], ys => ys
  | x :: xs, [] => x :: xs
  | x :: xs, y :: ys => (x || y) :: orPad xs ys

@[simp] theorem length_orPad : ∀ xs ys : List Bool,
    (orPad xs ys).length = max xs.length ys.length
  | [], ys => by simp [orPad]
  | x :: xs, [] => by simp [orPad]
  | x :: xs, y :: ys => by
    simp only [orPad, List.length_cons, length_orPad xs ys]
    omega

theorem getD_orPad : ∀ (xs ys : List Bool) (i : Nat),
    (orPad xs ys).getD i false = (xs.getD i false || ys.getD i false)
  | [], ys, i => by simp [orPad]
  | x :: xs, [], i => by simp [orPad]
  | x :: xs, y :: ys, 0 => by simp [orPad]
  | x :: xs, y :: ys, i + 1 => by
    simp only [orPad, List.getD_cons_succ]
    exact getD_orPad xs ys i

namespace BitList

variable {N : Nat}

def len (b : BitList N) : Nat := b.bits.length

/-- `BitList::with_capacity`: `n` zero bits, refused past the bound. -/
def withCapacity (n : Nat) : Except Error (BitList N) :=
  if h : n ≤ N then .ok ⟨List.replicate n false, by simpa using h⟩
  else .error (.OutOfBounds N N)

/-- `get` reads a bit inside the length and refuses any other position. -/
def get (b : BitList N) (i : Nat) : Except Error Bool :=
  if h : i < b.bits.length then .ok b.bits[i] else .error (.OutOfBounds i b.bits.length)

/-- `set` writes a bit inside the length and refuses any other position. -/
def set (b : BitList N) (i : Nat) (v : Bool) : Except Error (BitList N) :=
  if i < b.bits.length then .ok ⟨b.bits.set i v, by simpa using b.bound⟩
  else .error (.OutOfBounds i b.bits.length)

/-- `union` has the longer length and the `or` of the two bits at each position. -/
def union (a b : BitList N) : BitList N :=
  ⟨orPad a.bits b.bits, by simpa using ⟨a.bound, b.bound⟩⟩

def numSetBits (b : BitList N) : Nat := b.bits.count true

/-- The bit at `i`, `false` past the end: what `get(i).unwrap_or(false)` reads. -/
def getD (b : BitList N) (i : Nat) : Bool := b.bits.getD i false

/-- The positions of the set bits in increasing order: `iter().enumerate().filter(bit)`. -/
def indices (b : BitList N) : List Nat := (List.range b.len).filter b.getD

@[simp] theorem len_union (a b : BitList N) : (a.union b).len = max a.len b.len := by
  simp [union, len]

@[simp] theorem getD_union (a b : BitList N) (i : Nat) :
    (a.union b).getD i = (a.getD i || b.getD i) := getD_orPad a.bits b.bits i

theorem withCapacity_ok {n : Nat} {b : BitList N} (h : withCapacity n = .ok b) :
    b.bits = List.replicate n false := by
  unfold withCapacity at h
  split at h
  · cases h; rfl
  · cases h

theorem withCapacity_of_le {n : Nat} (h : n ≤ N) :
    (withCapacity n : Except Error (BitList N)) = .ok ⟨List.replicate n false, by simpa using h⟩ := by
  simp [withCapacity, h]

@[simp] theorem len_withCapacity {n : Nat} {b : BitList N} (h : withCapacity n = .ok b) :
    b.len = n := by
  simp [len, withCapacity_ok h]

@[simp] theorem getD_withCapacity {n : Nat} {b : BitList N} (h : withCapacity n = .ok b)
    (i : Nat) : b.getD i = false := by
  simp only [getD, withCapacity_ok h, List.getD_eq_getElem?_getD, List.getElem?_replicate]
  split <;> rfl

theorem get_ok {b : BitList N} {i : Nat} {v : Bool} (h : b.get i = .ok v) :
    i < b.len ∧ b.getD i = v := by
  unfold get at h
  split at h
  · rename_i hi
    cases h
    exact ⟨hi, by simp [getD, List.getD_eq_getElem?_getD, hi]⟩
  · cases h

theorem get_of_lt {b : BitList N} {i : Nat} (hi : i < b.len) : b.get i = .ok (b.getD i) := by
  unfold len at hi
  simp [get, hi, getD, List.getD_eq_getElem?_getD]

theorem get_ok_iff {b : BitList N} {i : Nat} : (∃ v, b.get i = .ok v) ↔ i < b.len :=
  ⟨fun ⟨_, h⟩ => (get_ok h).1, fun h => ⟨_, get_of_lt h⟩⟩

theorem set_ok {b b' : BitList N} {i : Nat} {v : Bool} (h : b.set i v = .ok b') :
    i < b.len ∧ b'.bits = b.bits.set i v := by
  unfold set at h
  split at h
  · rename_i hi
    cases h
    exact ⟨hi, rfl⟩
  · cases h

theorem set_of_lt {b : BitList N} {i : Nat} (v : Bool) (hi : i < b.len) :
    b.set i v = .ok ⟨b.bits.set i v, by simpa using b.bound⟩ := by
  unfold len at hi
  simp [set, hi]

@[simp] theorem len_set {b b' : BitList N} {i : Nat} {v : Bool} (h : b.set i v = .ok b') :
    b'.len = b.len := by
  simp [len, (set_ok h).2]

theorem getD_set {b b' : BitList N} {i : Nat} {v : Bool} (h : b.set i v = .ok b') (j : Nat) :
    b'.getD j = if j = i then v else b.getD j := by
  obtain ⟨hi, hb⟩ := set_ok h
  unfold getD
  rw [hb]
  simp only [List.getD_eq_getElem?_getD, List.getElem?_set]
  by_cases hj : j = i
  · subst hj
    simp [show j < b.bits.length from hi]
  · simp [Ne.symm hj, hj]

theorem getD_of_len_le {b : BitList N} {i : Nat} (h : b.len ≤ i) : b.getD i = false := by
  unfold getD
  rw [List.getD_eq_getElem?_getD, List.getElem?_eq_none h]
  rfl

theorem ext_getD {a b : BitList N} (hl : a.len = b.len) (h : ∀ i, a.getD i = b.getD i) :
    a = b := by
  obtain ⟨as, ha⟩ := a
  obtain ⟨bs, hb⟩ := b
  simp only [BitList.mk.injEq]
  apply List.ext_getElem hl
  intro i hia hib
  have := h i
  simp only [getD, List.getD_eq_getElem?_getD, List.getElem?_eq_getElem hia,
    List.getElem?_eq_getElem hib, Option.getD_some] at this
  exact this

theorem numSetBits_eq_card (b : BitList N) :
    b.numSetBits = ((Finset.range b.len).filter fun v => b.getD v = true).card := by
  unfold numSetBits len getD
  rw [Finset.card_filter]
  induction b.bits with
  | nil => simp
  | cons x xs ih =>
    rw [List.length_cons, Finset.sum_range_succ', List.count_cons, ih]
    cases x <;> simp

/-- Set positions `i`, `i + 1`, … to the given bits in turn: a `for` loop of `set` calls that
stops at the first failure. -/
def setAll : BitList N → Nat → List Bool → Except Error (BitList N)
  | b, _, [] => .ok b
  | b, i, v :: vs =>
    match b.set i v with
    | .error e => .error e
    | .ok b' => setAll b' (i + 1) vs

theorem setAll_of_le : ∀ (b : BitList N) (i : Nat) (vs : List Bool),
    i + vs.length ≤ b.len → ∃ b', setAll b i vs = .ok b' ∧ b'.len = b.len ∧
      ∀ j, b'.getD j = if i ≤ j ∧ j < i + vs.length then vs.getD (j - i) false else b.getD j
  | b, i, [], _ => ⟨b, rfl, rfl, fun j => by simp; omega⟩
  | b, i, v :: vs, h => by
    have hi : i < b.len := by simp at h; omega
    have hset := set_of_lt v hi
    have hlen1 : (⟨b.bits.set i v, by simpa using b.bound⟩ : BitList N).len = b.len := by
      simp [len]
    obtain ⟨b'', hb'', hlen, hget⟩ := setAll_of_le ⟨b.bits.set i v, by simpa using b.bound⟩
      (i + 1) vs (by rw [hlen1]; simp only [List.length_cons] at h; omega)
    refine ⟨b'', ?_, ?_, ?_⟩
    · rw [setAll, hset]
      exact hb''
    · rw [hlen, hlen1]
    · intro j
      rw [hget j, getD_set hset j]
      by_cases hj : j = i
      · subst hj
        simp
      · by_cases hin : i + 1 ≤ j ∧ j < i + 1 + vs.length
        · have hsub : j - i = (j - (i + 1)) + 1 := by omega
          simp only [hin, and_self, if_true, List.length_cons, hsub, List.getD_cons_succ]
          rw [if_pos (by omega)]
        · rw [if_neg hin, if_neg hj, if_neg (by simp only [List.length_cons]; omega)]

theorem setAll_withCapacity {vs : List Bool} (h : vs.length ≤ N) {b : BitList N}
    (hb : withCapacity vs.length = .ok b) : setAll b 0 vs = .ok ⟨vs, h⟩ := by
  have hlen : b.len = vs.length := len_withCapacity hb
  obtain ⟨b', hb', hlen', hget⟩ := setAll_of_le b 0 vs (by omega)
  rw [hb']
  congr 1
  apply ext_getD (by rw [hlen', hlen]; rfl)
  intro j
  rw [hget j]
  by_cases hj : j < vs.length
  · simp [hj, getD]
  · rw [if_neg (by omega), getD_withCapacity hb]
    simp [getD, List.getD_eq_getElem?_getD, List.getElem?_eq_none (Nat.le_of_not_lt hj)]

end BitList

/-- A vector of exactly `N` bits. -/
structure BitVector (N : Nat) where
  bits : List Bool
  length_eq : bits.length = N
  deriving DecidableEq, Repr

namespace BitVector

variable {N : Nat}

/-- `get` reads a bit inside the length and refuses any other position. -/
def get (b : BitVector N) (i : Nat) : Except Error Bool :=
  if h : i < b.bits.length then .ok b.bits[i] else .error (.OutOfBounds i b.bits.length)

/-- `set` writes a bit inside the length and refuses any other position. -/
def set (b : BitVector N) (i : Nat) (v : Bool) : Except Error (BitVector N) :=
  if i < b.bits.length then .ok ⟨b.bits.set i v, by simpa using b.length_eq⟩
  else .error (.OutOfBounds i b.bits.length)

/-- The vector with bit `i` replaced, what a successful `set` returns. -/
def update (b : BitVector N) (i : Nat) (v : Bool) : BitVector N :=
  ⟨b.bits.set i v, by simpa using b.length_eq⟩

@[simp] theorem bits_update (b : BitVector N) (i : Nat) (v : Bool) :
    (b.update i v).bits = b.bits.set i v := rfl

theorem set_of_lt (b : BitVector N) {i : Nat} (v : Bool) (hi : i < N) :
    b.set i v = .ok (b.update i v) := by
  have hlen : i < b.bits.length := by rw [b.length_eq]; exact hi
  simp [set, update, hlen]

theorem set_ok {b b' : BitVector N} {i : Nat} {v : Bool} (h : b.set i v = .ok b') :
    i < N ∧ b' = b.update i v := by
  unfold set at h
  split at h
  · rename_i hi
    cases h
    exact ⟨b.length_eq ▸ hi, rfl⟩
  · cases h

/-- `BitVector::default()`: every bit clear. -/
instance : Inhabited (BitVector N) := ⟨⟨List.replicate N false, List.length_replicate⟩⟩

/-- The bit at `i`, `false` past the end: what `get(i).unwrap_or(false)` reads. -/
def getD (b : BitVector N) (i : Nat) : Bool := b.bits.getD i false

@[simp] theorem getD_default (i : Nat) : (default : BitVector N).getD i = false := by
  show (List.replicate N false).getD i false = false
  rw [List.getD_eq_getElem?_getD, List.getElem?_replicate]
  split <;> rfl

theorem getD_update (b : BitVector N) {i : Nat} (v : Bool) (hi : i < N) (j : Nat) :
    (b.update i v).getD j = if j = i then v else b.getD j := by
  have hlen : i < b.bits.length := by rw [b.length_eq]; exact hi
  unfold getD
  rw [bits_update, List.getD_eq_getElem?_getD, List.getElem?_set, List.getD_eq_getElem?_getD]
  by_cases hj : j = i
  · subst hj
    simp [hlen]
  · simp [Ne.symm hj, hj]

theorem getD_of_le (b : BitVector N) {i : Nat} (hi : N ≤ i) : b.getD i = false := by
  have hlen : b.bits.length ≤ i := by rw [b.length_eq]; exact hi
  unfold getD
  rw [List.getD_eq_getElem?_getD, List.getElem?_eq_none hlen]
  rfl

/-- The positions of the set bits. -/
def setBits (b : BitVector N) : Finset Nat := (Finset.range N).filter fun i => b.getD i = true

theorem mem_setBits {b : BitVector N} {i : Nat} : i ∈ b.setBits ↔ b.getD i = true := by
  unfold setBits
  rw [Finset.mem_filter, Finset.mem_range]
  constructor
  · exact fun h => h.2
  · intro h
    refine ⟨Nat.lt_of_not_le fun hle => ?_, h⟩
    rw [getD_of_le b hle] at h
    exact Bool.false_ne_true h

@[simp] theorem setBits_default : (default : BitVector N).setBits = ∅ := by
  ext i
  simp [mem_setBits]

theorem setBits_update_true (b : BitVector N) {i : Nat} (hi : i < N) :
    (b.update i true).setBits = insert i b.setBits := by
  ext j
  rw [Finset.mem_insert, mem_setBits, mem_setBits, getD_update b true hi]
  by_cases hj : j = i <;> simp [hj]

end BitVector

/-- A vector of exactly `N` elements. -/
structure FixedVector (α : Type) (N : Nat) where
  data : List α
  length_eq : data.length = N

/-- `FixedVector::new`, also what `try_into` calls: a vector of another length is refused. -/
def FixedVector.new {α : Type} {N : Nat} (v : List α) : Except Error (FixedVector α N) :=
  if h : v.length = N then .ok ⟨v, h⟩ else .error (.OutOfBounds v.length N)

theorem FixedVector.new_of_length {α : Type} {N : Nat} {v : List α} (h : v.length = N) :
    (FixedVector.new v : Except Error (FixedVector α N)) = .ok ⟨v, h⟩ :=
  dif_pos h

theorem FixedVector.data_of_new {α : Type} {N : Nat} {v : List α} {w : FixedVector α N}
    (h : FixedVector.new v = .ok w) : w.data = v := by
  unfold FixedVector.new at h
  split at h
  · cases h; rfl
  · cases h

theorem VariableList.new_of_length_le {α : Type} {N : Nat} {v : List α} (h : v.length ≤ N) :
    (VariableList.new v : Except Error (VariableList α N)) = .ok ⟨v, h⟩ :=
  dif_pos h

end Ssz
