import Mathlib

/-!
# Loops in the error monad

A `for` loop whose body may fail is `List.foldlM` in `Except`; one with `break` is
`Loop.breakLoop`, and calls that each run on the state the one before left are `Loop.runEach`.
The lemmas relate a run to its prefixes and give the invariant rule of each.
-/

namespace Except

variable {ε ε' α β : Type}

@[simp] theorem bind_eq_ok {e : Except ε α} {f : α → Except ε β} {b : β} :
    e >>= f = .ok b ↔ ∃ a, e = .ok a ∧ f a = .ok b := by
  cases e with
  | error x => simp [bind, Except.bind]
  | ok a => simp [bind, Except.bind]

@[simp] theorem ok_bind {a : α} {f : α → Except ε β} :
    (Except.ok a : Except ε α) >>= f = f a := rfl

@[simp] theorem mapError_eq_ok {e : Except ε α} {g : ε → ε'} {a : α} :
    e.mapError g = .ok a ↔ e = .ok a := by
  cases e <;> simp [Except.mapError]

@[simp] theorem pure_eq_ok {a b : α} : (pure a : Except ε α) = .ok b ↔ a = b := by
  simp [pure, Except.pure]

theorem ok_inj {a b : α} : (Except.ok a : Except ε α) = .ok b ↔ a = b := by simp

@[simp] theorem map_eq_ok {f : α → β} {e : Except ε α} {b : β} :
    f <$> e = .ok b ↔ ∃ a, e = .ok a ∧ f a = b := by
  cases e <;> simp [Functor.map, Except.map]

/-- A guard whose failure branch is an error succeeds exactly when the guard passes and the
rest succeeds. -/
@[simp] theorem ite_error_eq_ok {p : Prop} [Decidable p] {e : ε} {x : Except ε α} {b : α} :
    (if p then .error e else x) = .ok b ↔ ¬ p ∧ x = .ok b := by
  by_cases hp : p <;> simp [hp]

end Except

namespace Loop

variable {ε σ α : Type}

theorem foldl_prefix_invariant (f : σ → α → σ) (P : List α → σ → Prop)
    (step : ∀ p x s, P p s → P (p ++ [x]) (f s x)) :
    ∀ (l : List α) {p : List α} {s : σ}, P p s → P (p ++ l) (l.foldl f s)
  | [], p, s, h => by
    rw [List.append_nil]
    exact h
  | x :: l, p, s, h => by
    rw [List.foldl_cons, ← List.singleton_append, ← List.append_assoc]
    exact foldl_prefix_invariant f P step l (step p x s h)

theorem foldlM_append_singleton (f : σ → α → Except ε σ) (s : σ) (l : List α) (x : α) :
    (l ++ [x]).foldlM f s = (l.foldlM f s >>= fun s' => f s' x) := by
  rw [List.foldlM_append]
  simp

theorem foldlM_flatMap {β : Type} (f : σ → α → Except ε σ) (g : β → List α) (s : σ)
    (l : List β) : (l.flatMap g).foldlM f s = l.foldlM (fun s b => (g b).foldlM f s) s := by
  induction l generalizing s with
  | nil => rfl
  | cons b l ih =>
    rw [List.flatMap_cons, List.foldlM_append, List.foldlM_cons]
    simp only [ih]

theorem foldlM_take_ok {f : σ → α → Except ε σ} {s s' : σ} {l : List α}
    (h : l.foldlM f s = .ok s') (k : Nat) : ∃ sk, (l.take k).foldlM f s = .ok sk := by
  induction l generalizing s k with
  | nil => exact ⟨s, by simp⟩
  | cons x xs ih =>
    cases k with
    | zero => exact ⟨s, by simp⟩
    | succ k =>
      simp only [List.foldlM_cons, Except.bind_eq_ok] at h
      obtain ⟨s1, hs1, hrest⟩ := h
      obtain ⟨sk, hsk⟩ := ih hrest k
      exact ⟨sk, by simp [hs1, hsk]⟩

/-- The run over the first `k + 1` elements is one more step after the run over the first
`k`. -/
theorem foldlM_take_succ (f : σ → α → Except ε σ) (s : σ) (l : List α) (k : Nat)
    (hk : k < l.length) :
    (l.take (k + 1)).foldlM f s = ((l.take k).foldlM f s >>= fun s' => f s' l[k]) := by
  rw [List.take_add_one, List.getElem?_eq_getElem hk, Option.toList_some,
    foldlM_append_singleton]

/-- Successive prefix runs: the state after `k + 1` elements is one step from the state
after `k`. -/
theorem foldlM_take_step {f : σ → α → Except ε σ} {s sk sk' : σ} {l : List α} {k : Nat}
    (hk : k < l.length) (h : (l.take k).foldlM f s = .ok sk)
    (h' : (l.take (k + 1)).foldlM f s = .ok sk') : f sk l[k] = .ok sk' := by
  rw [foldlM_take_succ f s l k hk, h] at h'
  simpa using h'

theorem foldlM_invariant {f : σ → α → Except ε σ} (P : σ → Prop)
    (step : ∀ s x s', P s → f s x = .ok s' → P s') :
    ∀ {l : List α} {s s' : σ}, P s → l.foldlM f s = .ok s' → P s'
  | [], s, s', hs, h => by
    simp only [List.foldlM_nil, Except.pure_eq_ok] at h
    exact h ▸ hs
  | x :: xs, s, s', hs, h => by
    simp only [List.foldlM_cons, Except.bind_eq_ok] at h
    obtain ⟨s1, hs1, hrest⟩ := h
    exact foldlM_invariant P step (step s x s1 hs hs1) hrest

/-- The same rule for an invariant indexed by the number of steps taken, as a loop over a
list read position by position. -/
theorem foldlM_take_invariant {f : σ → α → Except ε σ} {l : List α} {s : σ}
    (P : Nat → σ → Prop) (h0 : P 0 s)
    (step : ∀ k (hk : k < l.length) sk sk', P k sk → f sk l[k] = .ok sk' → P (k + 1) sk') :
    ∀ k sk, (l.take k).foldlM f s = .ok sk → P (min k l.length) sk := by
  intro k
  induction k with
  | zero =>
    intro sk h
    simp only [List.take_zero, List.foldlM_nil, Except.pure_eq_ok] at h
    simpa [← h] using h0
  | succ k ih =>
    intro sk h
    by_cases hk : k < l.length
    · obtain ⟨sk0, hsk0⟩ := @foldlM_take_ok _ _ _ _ _ _ (l.take (k + 1)) h k
      rw [List.take_take, Nat.min_eq_left (Nat.le_succ k)] at hsk0
      have hstep := foldlM_take_step hk hsk0 h
      have hP := step k hk sk0 sk (by simpa [Nat.min_eq_left hk.le] using ih sk0 hsk0) hstep
      rwa [Nat.min_eq_left (by omega)]
    · rw [List.take_of_length_le (by omega)] at h
      rw [List.take_of_length_le (by omega)] at ih
      have := ih sk h
      rwa [Nat.min_eq_right (by omega)] at this ⊢

theorem foldlM_index_invariant {f : σ → α → Except ε σ} {l : List α} {s s' : σ}
    (P : Nat → σ → Prop) (h0 : P 0 s)
    (step : ∀ k (hk : k < l.length) sk sk', P k sk → f sk l[k] = .ok sk' → P (k + 1) sk')
    (h : l.foldlM f s = .ok s') : P l.length s' := by
  have hrun := foldlM_take_invariant P h0 step l.length s' (by rwa [List.take_length])
  rwa [Nat.min_self] at hrun

/-- A loop whose every step succeeds is the pure loop of its results: the step succeeds on
every element of the list, from every state of an invariant that the pure step keeps. -/
theorem foldlM_eq_ok {f : σ → α → Except ε σ} {g : σ → α → σ} (P : σ → Prop) :
    ∀ {l : List α}, (∀ s x, x ∈ l → P s → f s x = .ok (g s x) ∧ P (g s x)) →
      ∀ {s : σ}, P s → l.foldlM f s = .ok (l.foldl g s)
  | [], _, _, _ => rfl
  | x :: l, step, s, hs => by
    obtain ⟨hf, hP⟩ := step s x List.mem_cons_self hs
    rw [List.foldlM_cons, hf, List.foldl_cons]
    exact foldlM_eq_ok P (fun s y hy => step s y (List.mem_cons_of_mem x hy)) hP

theorem mapM_eq_ok {β : Type} {f : α → Except ε β} {g : α → β} :
    ∀ {l : List α}, (∀ a ∈ l, f a = .ok (g a)) → l.mapM f = .ok (l.map g)
  | [], _ => rfl
  | a :: l, h => by
    rw [List.mapM_cons, h a List.mem_cons_self,
      mapM_eq_ok fun b hb => h b (List.mem_cons_of_mem a hb)]
    rfl

theorem mapM_ok {β : Type} {f : α → Except ε β} :
    ∀ {l : List α}, (∀ a ∈ l, ∃ b, f a = .ok b) → ∃ r, l.mapM f = .ok r
  | [], _ => ⟨[], rfl⟩
  | a :: l, h => by
    obtain ⟨b, hb⟩ := h a List.mem_cons_self
    obtain ⟨r, hr⟩ := mapM_ok fun a' ha' => h a' (List.mem_cons_of_mem a ha')
    refine ⟨b :: r, ?_⟩
    rw [List.mapM_cons, hb, Except.ok_bind, hr]
    rfl

theorem foldlM_ok {f : σ → α → Except ε σ} (P : σ → Prop) :
    ∀ {l : List α}, (∀ s x, x ∈ l → P s → ∃ s', f s x = .ok s' ∧ P s') →
      ∀ {s : σ}, P s → ∃ s', l.foldlM f s = .ok s' ∧ P s'
  | [], _, s, hs => ⟨s, rfl, hs⟩
  | x :: l, step, s, hs => by
    obtain ⟨s1, hf, hP⟩ := step s x List.mem_cons_self hs
    rw [List.foldlM_cons, hf, Except.ok_bind]
    exact foldlM_ok P (fun s y hy => step s y (List.mem_cons_of_mem x hy)) hP

/-- An invariant kept by every successful step on an element of the list holds after the
loop. -/
theorem foldlM_mem_invariant {f : σ → α → Except ε σ} (P : σ → Prop) :
    ∀ {l : List α}, (∀ s x s', x ∈ l → P s → f s x = .ok s' → P s') →
      ∀ {s s' : σ}, P s → l.foldlM f s = .ok s' → P s'
  | [], _, s, s', hs, h => by
    simp only [List.foldlM_nil, Except.pure_eq_ok] at h
    exact h ▸ hs
  | x :: l, step, s, s', hs, h => by
    simp only [List.foldlM_cons, Except.bind_eq_ok] at h
    obtain ⟨s1, hs1, hrest⟩ := h
    exact foldlM_mem_invariant P (fun s y s' hy => step s y s' (List.mem_cons_of_mem x hy))
      (step s x s1 List.mem_cons_self hs hs1) hrest

theorem filterAuxM_eq_ok {f : α → Except ε Bool} {p : α → Bool} :
    ∀ {l : List α}, (∀ a ∈ l, f a = .ok (p a)) →
      ∀ acc, List.filterAuxM f l acc = .ok ((l.filter p).reverse ++ acc)
  | [], _, _ => rfl
  | a :: l, h, acc => by
    rw [List.filterAuxM, h a List.mem_cons_self, Except.ok_bind,
      filterAuxM_eq_ok (fun b hb => h b (List.mem_cons_of_mem a hb))]
    cases hp : p a <;> simp [hp]

theorem filterM_eq_ok {f : α → Except ε Bool} {p : α → Bool} {l : List α}
    (h : ∀ a ∈ l, f a = .ok (p a)) : l.filterM f = .ok (l.filter p) := by
  rw [List.filterM, filterAuxM_eq_ok h, Except.ok_bind, List.append_nil, List.reverse_reverse]
  rfl

theorem mem_of_mapM_eq_ok {β : Type} {f : α → Except ε β} :
    ∀ {l : List α} {r : List β}, l.mapM f = .ok r → ∀ b ∈ r, ∃ a ∈ l, f a = .ok b
  | [], r, h, b, hb => by
    rw [List.mapM_nil, Except.pure_eq_ok] at h
    subst h
    cases hb
  | a :: l, r, h, b, hb => by
    simp only [List.mapM_cons, Except.bind_eq_ok, Except.pure_eq_ok] at h
    obtain ⟨b₀, hb₀, rest, hrest, rfl⟩ := h
    rcases List.mem_cons.mp hb with rfl | hmem
    · exact ⟨a, List.mem_cons_self, hb₀⟩
    · obtain ⟨a', ha', hfa'⟩ := mem_of_mapM_eq_ok hrest b hmem
      exact ⟨a', List.mem_cons_of_mem a ha', hfa'⟩

theorem mem_of_filterMapM_eq_ok {β : Type} {f : α → Except ε (Option β)} :
    ∀ {l : List α} {r : List β}, l.filterMapM f = .ok r → ∀ b ∈ r, ∃ a ∈ l, f a = .ok (some b)
  | [], r, h, b, hb => by
    rw [List.filterMapM_nil, Except.pure_eq_ok] at h
    subst h
    cases hb
  | a :: l, r, h, b, hb => by
    rw [List.filterMapM_cons, Except.bind_eq_ok] at h
    obtain ⟨o, ho, h⟩ := h
    cases o with
    | none =>
      obtain ⟨a', ha', hfa'⟩ := mem_of_filterMapM_eq_ok h b hb
      exact ⟨a', List.mem_cons_of_mem a ha', hfa'⟩
    | some b₀ =>
      simp only [Except.bind_eq_ok, Except.pure_eq_ok] at h
      obtain ⟨rest, hrest, rfl⟩ := h
      rcases List.mem_cons.mp hb with rfl | hmem
      · exact ⟨a, List.mem_cons_self, ho⟩
      · obtain ⟨a', ha', hfa'⟩ := mem_of_filterMapM_eq_ok hrest b hmem
        exact ⟨a', List.mem_cons_of_mem a ha', hfa'⟩

/-- What a `filterMap` keeps, each entry the image of the one it came from, is a sublist of the
images of all entries. -/
theorem filterMap_sublist_map {β : Type} {f : α → Option β} {g : α → β}
    (h : ∀ a b, f a = some b → b = g a) : ∀ l : List α, List.Sublist (l.filterMap f) (l.map g)
  | [] => .slnil
  | a :: l => by
    rw [List.filterMap_cons, List.map_cons]
    cases hfa : f a with
    | none => exact (filterMap_sublist_map h l).cons (g a)
    | some b =>
      rw [h a b hfa]
      exact (filterMap_sublist_map h l).cons_cons (g a)

/-- A `for` loop with `break`: each step returns the new state and whether to leave. -/
def breakLoop (step : σ → α → Except ε (σ × Bool)) : σ → List α → Except ε σ
  | s, [] => .ok s
  | s, a :: rest => do
    let r ← step s a
    if r.2 then pure r.1 else breakLoop step r.1 rest

@[simp] theorem breakLoop_nil (step : σ → α → Except ε (σ × Bool)) (s : σ) :
    breakLoop step s [] = .ok s := rfl

/-- The rule of a loop with `break`: an invariant `P k` after `k` steps that go on, and a final
property `Q` that a breaking step and the end of the list both establish. -/
theorem breakLoop_spec {step : σ → α → Except ε (σ × Bool)} (P : Nat → σ → Prop) (Q : σ → Prop) :
    ∀ (l : List α),
      (∀ k (hk : k < l.length) s s', P k s → step s l[k] = .ok (s', false) → P (k + 1) s') →
      (∀ k (hk : k < l.length) s s', P k s → step s l[k] = .ok (s', true) → Q s') →
      (∀ s, P l.length s → Q s) →
      ∀ s s', P 0 s → breakLoop step s l = .ok s' → Q s'
  | [], _, _, hend, s, s', hs, h => by
    rw [breakLoop_nil, Except.ok_inj] at h
    exact h ▸ hend s hs
  | a :: rest, hgo, hbreak, hend, s, s', hs, h => by
    simp only [breakLoop, Except.bind_eq_ok] at h
    obtain ⟨⟨s1, done⟩, hstep, hrest⟩ := h
    cases done with
    | true =>
      rw [if_pos rfl, Except.pure_eq_ok] at hrest
      exact hrest ▸ hbreak 0 (by simp) s s1 hs hstep
    | false =>
      rw [if_neg Bool.false_ne_true] at hrest
      refine breakLoop_spec (fun k => P (k + 1)) Q rest ?_ ?_ ?_ s1 s' (hgo 0 (by simp) s s1 hs hstep) hrest
      · intro k hk t t' ht htk
        exact hgo (k + 1) (by simp [hk]) t t' ht htk
      · intro k hk t t' ht htk
        exact hbreak (k + 1) (by simp [hk]) t t' ht htk
      · intro t ht
        exact hend t (by simpa using ht)

/-- A loop with `break` succeeds when, from every state of an invariant indexed by the steps
taken, the step succeeds and, if it goes on, keeps the invariant. -/
theorem breakLoop_ok {step : σ → α → Except ε (σ × Bool)} (P : Nat → σ → Prop) :
    ∀ (l : List α),
      (∀ k (hk : k < l.length) s, P k s →
        ∃ s' done, step s l[k] = .ok (s', done) ∧ (done = false → P (k + 1) s')) →
      ∀ s, P 0 s → ∃ s', breakLoop step s l = .ok s'
  | [], _, s, _ => ⟨s, rfl⟩
  | a :: rest, hstep, s, hs => by
    obtain ⟨s1, done, hs1, hgo⟩ := hstep 0 (by simp) s hs
    rw [List.getElem_cons_zero] at hs1
    cases done with
    | true => exact ⟨s1, by simp [breakLoop, hs1]⟩
    | false =>
      obtain ⟨s', hrest⟩ := breakLoop_ok (fun k => P (k + 1)) rest
        (fun k hk t ht => hstep (k + 1) (by simp [hk]) t ht) s1 (hgo rfl)
      exact ⟨s', by simp [breakLoop, hs1, hrest]⟩

/-- Calls made one after another, each on the state the one before it left, with what each
returned. -/
def runEach {β : Type} (call : σ → α → Except ε (β × σ)) : σ → List α → Except ε (List β × σ)
  | s, [] => .ok ([], s)
  | s, a :: rest => do
    let (b, s') ← call s a
    let (bs, s'') ← runEach call s' rest
    pure (b :: bs, s'')

section runEach

variable {β τ : Type} {call : σ → α → Except ε (β × σ)}

@[simp] theorem runEach_nil (s : σ) : runEach call s [] = .ok ([], s) := rfl

theorem runEach_cons (s : σ) (a : α) (rest : List α) :
    runEach call s (a :: rest) = (do
      let (b, s') ← call s a
      let (bs, s'') ← runEach call s' rest
      pure (b :: bs, s'')) := rfl

theorem runEach_keeps (P : σ → Prop) (hkeep : ∀ s a b s', P s → call s a = .ok (b, s') → P s') :
    ∀ (l : List α) (s : σ) {outs : List β} {s' : σ}, P s → runEach call s l = .ok (outs, s') → P s'
  | [], s, outs, s', hs, h => by
    rw [runEach_nil, Except.ok_inj, Prod.mk.injEq] at h
    exact h.2 ▸ hs
  | a :: rest, s, outs, s', hs, h => by
    simp only [runEach_cons, Except.bind_eq_ok, Except.pure_eq_ok] at h
    obtain ⟨⟨b, s1⟩, hcall, ⟨bs, s2⟩, hrest, heq⟩ := h
    cases heq
    exact runEach_keeps P hkeep rest s1 (hkeep s a b s1 hs hcall) hrest

/-- A run read through an abstraction of its state is the run of the abstract calls, when every
call on a state that a property kept by the calls admits is, read through it, the abstract
call. -/
theorem runEach_sim {call' : τ → α → Except ε (β × τ)} (P : σ → Prop) (abs : σ → τ)
    (hkeep : ∀ s a b s', P s → call s a = .ok (b, s') → P s')
    (hsim : ∀ s a, P s → Prod.map id abs <$> call s a = call' (abs s) a) :
    ∀ (l : List α) (s : σ), P s → Prod.map id abs <$> runEach call s l = runEach call' (abs s) l
  | [], s, _ => rfl
  | a :: rest, s, hs => by
    rw [runEach_cons, runEach_cons, ← hsim s a hs]
    cases hcall : call s a with
    | error e => rfl
    | ok r =>
      obtain ⟨b, s1⟩ := r
      have ih := runEach_sim P abs hkeep hsim rest s1 (hkeep s a b s1 hs hcall)
      show Prod.map id abs <$> (runEach call s1 rest >>= fun r => pure (b :: r.1, r.2)) =
        runEach call' (abs s1) rest >>= fun r => pure (b :: r.1, r.2)
      rw [← ih]
      cases runEach call s1 rest <;> rfl

end runEach

end Loop
