import Mathlib

/-!
# Programs over a store that keep their writes when they fail

A method that mutates a database and returns early with `?` is an `EStateM` program whose failed
runs keep the store the writes left. `Keeps R x` relates the start and end store of every run,
and composes through `bind`, conditionals and loops.
-/

namespace EStateM

variable {ε σ α β : Type}

/-- The store a run leaves, whether it succeeded or failed. -/
def Result.state : Result ε σ α → σ
  | .ok _ s => s
  | .error _ s => s

@[simp] theorem Result.state_ok (a : α) (s : σ) : (Result.ok a s : Result ε σ α).state = s :=
  rfl

@[simp] theorem Result.state_error (e : ε) (s : σ) :
    (Result.error e s : Result ε σ α).state = s :=
  rfl

/-! ## Reading a run of a sequence -/

theorem run_bind_eq_ok {x : EStateM ε σ α} {f : α → EStateM ε σ β} {s s' : σ} {b : β} :
    (x >>= f).run s = .ok b s' ↔ ∃ a s1, x.run s = .ok a s1 ∧ (f a).run s1 = .ok b s' := by
  rw [run_bind]
  cases x.run s with
  | ok a s1 => simp
  | error e s1 => simp

theorem run_bind_eq_error {x : EStateM ε σ α} {f : α → EStateM ε σ β} {s s' : σ} {e : ε} :
    (x >>= f).run s = .error e s' ↔
      x.run s = .error e s' ∨ ∃ a s1, x.run s = .ok a s1 ∧ (f a).run s1 = .error e s' := by
  rw [run_bind]
  cases x.run s with
  | ok a s1 => simp
  | error e1 s1 => simp

@[simp] theorem run_ofExcept_ok (a : α) (s : σ) :
    (MonadExcept.ofExcept (Except.ok a : Except ε α) : EStateM ε σ α).run s = .ok a s :=
  rfl

@[simp] theorem run_ofExcept_error (e : ε) (s : σ) :
    (MonadExcept.ofExcept (Except.error e : Except ε α) : EStateM ε σ α).run s = .error e s :=
  rfl

/-! ## Relations every run keeps -/

/-- Every run of `x` relates its start store to its end store by `R`. -/
def Keeps (R : σ → σ → Prop) (x : EStateM ε σ α) : Prop :=
  ∀ s, R s (x.run s).state

/-- A program that leaves the store as it found it, on every run. -/
def ReadOnly (x : EStateM ε σ α) : Prop :=
  Keeps (fun s s' => s' = s) x

variable {R R' : σ → σ → Prop}

theorem Keeps.pure (hR : ∀ s, R s s) (a : α) : Keeps R (Pure.pure a : EStateM ε σ α) :=
  fun s => hR s

theorem Keeps.throw (hR : ∀ s, R s s) (e : ε) : Keeps R (throw e : EStateM ε σ α) :=
  fun s => hR s

theorem Keeps.ofExcept (hR : ∀ s, R s s) (r : Except ε α) :
    Keeps R (MonadExcept.ofExcept r : EStateM ε σ α) := by
  intro s
  cases r with
  | ok a => exact hR s
  | error e => exact hR s

theorem Keeps.get (hR : ∀ s, R s s) : Keeps R (get : EStateM ε σ σ) :=
  fun s => hR s

theorem Keeps.modify {f : σ → σ} (h : ∀ s, R s (f s)) :
    Keeps R (modify f : EStateM ε σ PUnit) :=
  h

theorem Keeps.bind (hT : ∀ a b c, R a b → R b c → R a c) {x : EStateM ε σ α}
    {f : α → EStateM ε σ β} (hx : Keeps R x) (hf : ∀ a, Keeps R (f a)) : Keeps R (x >>= f) := by
  intro s
  rw [run_bind]
  have hxs := hx s
  cases h : x.run s with
  | ok a s1 =>
    rw [h] at hxs
    exact hT _ _ _ hxs (hf a s1)
  | error e s1 =>
    rw [h] at hxs
    exact hxs

theorem Keeps.throw_bind (hR : ∀ s, R s s) (e : ε) (f : α → EStateM ε σ β) :
    Keeps R ((MonadExcept.throw e : EStateM ε σ α) >>= f) :=
  fun s => hR s

/-- A program that reads the store first keeps `R` when each continuation keeps it from the
store it read. -/
theorem Keeps.get_bind {f : σ → EStateM ε σ α} (hf : ∀ s, R s ((f s).run s).state) :
    Keeps R (MonadState.get >>= f) := by
  intro s
  rw [run_bind, run_get]
  exact hf s

theorem Keeps.ite {p : Prop} [Decidable p] {x y : EStateM ε σ α} (hx : Keeps R x)
    (hy : Keeps R y) : Keeps R (if p then x else y) := by
  by_cases hp : p
  · rw [if_pos hp]
    exact hx
  · rw [if_neg hp]
    exact hy

theorem Keeps.foldlM (hR : ∀ s, R s s) (hT : ∀ a b c, R a b → R b c → R a c)
    {f : β → α → EStateM ε σ β} (hf : ∀ b a, Keeps R (f b a)) : ∀ (l : List α) (b : β), Keeps R (l.foldlM f b)
  | [], b => Keeps.pure hR b
  | a :: l, b => by
    rw [List.foldlM_cons]
    exact Keeps.bind hT (hf b a) fun b' => Keeps.foldlM hR hT hf l b'

theorem Keeps.mono (h : ∀ s s', R s s' → R' s s') {x : EStateM ε σ α} (hx : Keeps R x) :
    Keeps R' x :=
  fun s => h s _ (hx s)

theorem Keeps.and {x : EStateM ε σ α} (hx : Keeps R x) (hx' : Keeps R' x) :
    Keeps (fun s s' => R s s' ∧ R' s s') x :=
  fun s => ⟨hx s, hx' s⟩

theorem ReadOnly.keeps (hR : ∀ s, R s s) {x : EStateM ε σ α} (hx : ReadOnly x) : Keeps R x := by
  intro s
  rw [hx s]
  exact hR s

theorem Keeps.run_ok {x : EStateM ε σ α} (hx : Keeps R x) {s s' : σ} {a : α}
    (h : x.run s = .ok a s') : R s s' := by
  have hs := hx s
  rw [h] at hs
  exact hs

theorem ReadOnly.run_ok {x : EStateM ε σ α} (hx : ReadOnly x) {s s' : σ} {a : α}
    (h : x.run s = .ok a s') : s' = s := by
  have hs := hx s
  rw [h] at hs
  exact hs

theorem ReadOnly.run_error {x : EStateM ε σ α} (hx : ReadOnly x) {s s' : σ} {e : ε}
    (h : x.run s = .error e s') : s' = s := by
  have hs := hx s
  rw [h] at hs
  exact hs

end EStateM
