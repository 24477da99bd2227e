import Ream.Beacon.Registry
import Ream.Lib.Loop

/-! The exit and consolidation churn (`compute_{exit,consolidation}_epoch_and_update_churn`): one
body over two queues, read as first-fit scheduling on a ledger of per-epoch budgets. The `u64`
sums wrap; the accounting holds for every run whose last epoch fits in 64 bits. -/

namespace Ream.Beacon.Electra

/-- Unsigned division, which panics on a zero divisor. -/
def rustDiv (a b : UInt64) : Except String UInt64 :=
  if b = 0 then .error "attempt to divide by zero" else .ok (a / b)

/-- The queue a request starts from: at the activation-exit epoch at the earliest, with a whole
epoch's churn to consume when it had to move there. -/
def churnStart (activationExitEpoch : Nat) (perEpochChurn : UInt64) (earliestEpoch : Nat)
    (balanceToConsume : UInt64) : Nat × UInt64 :=
  let earliest := max earliestEpoch activationExitEpoch
  (earliest, if earliestEpoch < earliest then perEpochChurn else balanceToConsume)

/-- The epoch a request lands in and the budget there before the request takes its balance. -/
def churnSchedule (activationExitEpoch : Nat) (perEpochChurn : UInt64) (earliestEpoch : Nat)
    (balanceToConsume balance : UInt64) : Except String (Nat × UInt64) := do
  let (earliest, toConsume) :=
    churnStart activationExitEpoch perEpochChurn earliestEpoch balanceToConsume
  if balance > toConsume then
    let balanceToProcess := balance - toConsume
    let additionalEpochs := (← rustDiv (balanceToProcess - 1) perEpochChurn) + 1
    pure ((earliest + additionalEpochs.toNat) % 2 ^ 64, toConsume + additionalEpochs * perEpochChurn)
  else pure (earliest, toConsume)

/-- The body both methods share: the new earliest epoch, which is also the epoch returned, and
what is left to consume in it. -/
def consumeChurn (activationExitEpoch : Nat) (perEpochChurn : UInt64) (earliestEpoch : Nat)
    (balanceToConsume balance : UInt64) : Except String (Nat × UInt64) := do
  let (earliest, toConsume) ←
    churnSchedule activationExitEpoch perEpochChurn earliestEpoch balanceToConsume balance
  pure (earliest, toConsume - balance)

namespace BeaconState

variable (s : BeaconState)

def computeExitEpochAndUpdateChurn (exitBalance : UInt64) : Except String (Nat × BeaconState) := do
  let (earliestExitEpoch, exitBalanceToConsume) ←
    consumeChurn (computeActivationExitEpoch s.getCurrentEpoch) s.getActivationExitChurnLimit
      s.earliestExitEpoch s.exitBalanceToConsume exitBalance
  pure (earliestExitEpoch, { s with exitBalanceToConsume, earliestExitEpoch })

def computeConsolidationEpochAndUpdateChurn (consolidationBalance : UInt64) :
    Except String (Nat × BeaconState) := do
  let (earliestConsolidationEpoch, consolidationBalanceToConsume) ←
    consumeChurn (computeActivationExitEpoch s.getCurrentEpoch) s.getConsolidationChurnLimit
      s.earliestConsolidationEpoch s.consolidationBalanceToConsume consolidationBalance
  pure (earliestConsolidationEpoch,
    { s with consolidationBalanceToConsume, earliestConsolidationEpoch })

/-- The exit queue: the earliest exit epoch and the exit balance left in it. -/
def exitQueue : Nat × UInt64 := (s.earliestExitEpoch, s.exitBalanceToConsume)

/-- The consolidation queue. -/
def consolidationQueue : Nat × UInt64 :=
  (s.earliestConsolidationEpoch, s.consolidationBalanceToConsume)

end BeaconState

/-! ## The ledger -/

/-- The further epochs a balance needs beyond a budget, at churn per epoch: the excess divided
by the churn, rounded up. -/
def epochsNeeded (balance budget churn : Nat) : Nat :=
  if balance ≤ budget then 0 else (balance - budget - 1) / churn + 1

/-- The epochs a first-fit queue, with budget first in epoch start and churn in each epoch
after, gives to requests when the demand before them is demand. -/
def firstFit (start first churn : Nat) : Nat → List Nat → List Nat
  | _, [] => []
  | demand, b :: rest =>
    (start + epochsNeeded (demand + b) first churn) :: firstFit start first churn (demand + b) rest

section Ledger

variable {balance budget churn : Nat}

theorem le_add_mul_iff (hc : 0 < churn) {j : Nat} :
    balance ≤ budget + j * churn ↔ epochsNeeded balance budget churn ≤ j := by
  unfold epochsNeeded
  split
  case isTrue hle => exact ⟨fun _ => Nat.zero_le j, fun _ => le_add_right hle⟩
  case isFalse hlt =>
    rw [Nat.add_one_le_iff, Nat.div_lt_iff_lt_mul hc]
    omega

theorem le_add_epochsNeeded_mul (hc : 0 < churn) :
    balance ≤ budget + epochsNeeded balance budget churn * churn :=
  (le_add_mul_iff hc).mpr le_rfl

theorem epochsNeeded_mono (hc : 0 < churn) {balance' : Nat} (h : balance ≤ balance') :
    epochsNeeded balance budget churn ≤ epochsNeeded balance' budget churn :=
  (le_add_mul_iff hc).mp (h.trans (le_add_epochsNeeded_mul hc))

theorem add_epochsNeeded_mul_lt (hlt : budget < balance) :
    budget + epochsNeeded balance budget churn * churn < balance + churn := by
  have hdiv := Nat.div_mul_le_self (balance - budget - 1) churn
  rw [epochsNeeded, if_neg (not_le.mpr hlt), Nat.add_mul, one_mul]
  omega

/-- Demand met in two parts needs the epochs of the first, then those the second needs beyond
what the first left. -/
theorem epochsNeeded_add (hc : 0 < churn) (demand extra first : Nat) :
    epochsNeeded (demand + extra) first churn =
      epochsNeeded demand first churn +
        epochsNeeded extra (first + epochsNeeded demand first churn * churn - demand) churn := by
  set n := epochsNeeded demand first churn
  set m := epochsNeeded extra (first + n * churn - demand) churn
  have hn : demand ≤ first + n * churn := le_add_epochsNeeded_mul hc
  have hm : extra ≤ first + n * churn - demand + m * churn := le_add_epochsNeeded_mul hc
  apply le_antisymm
  · apply (le_add_mul_iff hc).mp
    rw [Nat.add_mul]
    omega
  · set N := epochsNeeded (demand + extra) first churn
    have hN : demand + extra ≤ first + N * churn := le_add_epochsNeeded_mul hc
    have hnN : n ≤ N := (le_add_mul_iff hc).mp (by omega)
    have hmul : n * churn ≤ N * churn := Nat.mul_le_mul_right churn hnN
    have hmN : m ≤ N - n := by
      apply (le_add_mul_iff hc).mp
      rw [Nat.sub_mul]
      omega
    omega

variable {start first : Nat}

theorem le_of_mem_firstFit (hc : 0 < churn) :
    ∀ {l : List Nat} {demand e : Nat}, e ∈ firstFit start first churn demand l →
      start + epochsNeeded demand first churn ≤ e
  | [], _, _, h => nomatch h
  | b :: rest, demand, e, h => by
    have hhead : start + epochsNeeded demand first churn ≤
        start + epochsNeeded (demand + b) first churn :=
      Nat.add_le_add_left (epochsNeeded_mono hc (Nat.le_add_right demand b)) start
    rcases List.mem_cons.mp h with rfl | hmem
    · exact hhead
    · exact hhead.trans (le_of_mem_firstFit hc hmem)

theorem firstFit_pairwise (hc : 0 < churn) :
    ∀ (l : List Nat) (demand : Nat), (firstFit start first churn demand l).Pairwise (· ≤ ·)
  | [], _ => List.Pairwise.nil
  | b :: rest, demand =>
    List.Pairwise.cons (fun _ he => le_of_mem_firstFit hc he) (firstFit_pairwise hc rest (demand + b))

end Ledger

/-! ## The shared body in natural numbers -/

section Body

variable {A : Nat} {c : UInt64} {E : Nat} {B b : UInt64}

theorem rustDiv_of_pos {a d : UInt64} (hd : 0 < d) : rustDiv a d = .ok (a / d) :=
  if_neg fun h => absurd (h ▸ hd) (by decide)

theorem churnStart_of_le (h : A ≤ E) : churnStart A c E B = (E, B) := by
  simp [churnStart, max_eq_left h]

theorem le_churnStart : A ≤ (churnStart A c E B).1 := le_max_right E A

/-- The schedule in natural numbers: the request lands `epochsNeeded` epochs after a start in
`u64`, and the budget there is the start's and a churn for each of them, both modulo `2 ^ 64` as
the sums wrap. -/
theorem churnSchedule_ok (hc : 0 < c) (hstart : (churnStart A c E B).1 < 2 ^ 64) :
    ∃ t, churnSchedule A c E B b = .ok (((churnStart A c E B).1 +
        epochsNeeded b.toNat (churnStart A c E B).2.toNat c.toNat) % 2 ^ 64, t) ∧
      t.toNat = ((churnStart A c E B).2.toNat +
        epochsNeeded b.toNat (churnStart A c E B).2.toNat c.toNat * c.toNat) % 2 ^ 64 := by
  unfold churnSchedule
  generalize churnStart A c E B = q at hstart
  obtain ⟨earliest, toConsume⟩ := q
  dsimp only at hstart ⊢
  split
  case isTrue hgt =>
    have hlt : toConsume.toNat < b.toNat := UInt64.lt_iff_toNat_lt.mp hgt
    have hpos : 0 < c.toNat := UInt64.lt_iff_toNat_lt.mp hc
    have hexcess : (b - toConsume - 1).toNat = b.toNat - toConsume.toNat - 1 := by
      rw [UInt64.toNat_sub, UInt64.toNat_sub]
      have := b.toNat_lt
      simp only [UInt64.toNat_one]
      omega
    have hk : ((b - toConsume - 1) / c + 1).toNat =
        epochsNeeded b.toNat toConsume.toNat c.toNat := by
      have hquot := Nat.div_le_self (b.toNat - toConsume.toNat - 1) c.toNat
      have := b.toNat_lt
      rw [UInt64.toNat_add, UInt64.toNat_div, hexcess, UInt64.toNat_one,
        epochsNeeded, if_neg (not_le.mpr hlt), Nat.mod_eq_of_lt (by omega)]
    rw [rustDiv_of_pos hc, Except.ok_bind]
    refine ⟨_, by rw [← hk]; rfl, ?_⟩
    rw [UInt64.toNat_add, UInt64.toNat_mul, hk, Nat.add_mod_mod]
  case isFalse hle =>
    have hle' : b.toNat ≤ toConsume.toNat := by
      have := mt UInt64.lt_iff_toNat_lt.mpr hle
      omega
    refine ⟨toConsume, ?_, ?_⟩
    · rw [epochsNeeded, if_pos hle', Nat.add_zero, Nat.mod_eq_of_lt hstart]
      rfl
    · rw [epochsNeeded, if_pos hle', Nat.zero_mul, Nat.add_zero, Nat.mod_eq_of_lt toConsume.toNat_lt]

theorem churn_left_lt (budget : UInt64) (hc : c.toNat ≤ 2 ^ 64) :
    budget.toNat + epochsNeeded b.toNat budget.toNat c.toNat * c.toNat - b.toNat < 2 ^ 64 := by
  have := budget.toNat_lt
  by_cases hlt : budget.toNat < b.toNat
  · have := @add_epochsNeeded_mul_lt b.toNat budget.toNat c.toNat hlt
    omega
  · rw [epochsNeeded, if_pos (not_lt.mp hlt)]
    omega

/-- The shared body in natural numbers, when the epoch it lands in fits in 64 bits: the wrapping of
the budget's sums cancels, and what is left is the start's budget and a churn per further epoch,
less the balance. -/
theorem consumeChurn_ok (hc : 0 < c)
    (hroom : (churnStart A c E B).1 + epochsNeeded b.toNat (churnStart A c E B).2.toNat c.toNat <
      2 ^ 64) :
    ∃ left : UInt64, consumeChurn A c E B b = .ok ((churnStart A c E B).1 +
        epochsNeeded b.toNat (churnStart A c E B).2.toNat c.toNat, left) ∧
      b.toNat + left.toNat = (churnStart A c E B).2.toNat +
        epochsNeeded b.toNat (churnStart A c E B).2.toNat c.toNat * c.toNat := by
  obtain ⟨t, hs, ht⟩ := @churnSchedule_ok A c E B b hc (lt_of_le_of_lt (Nat.le_add_right _ _) hroom)
  rw [Nat.mod_eq_of_lt hroom] at hs
  have hcover := @le_add_epochsNeeded_mul b.toNat (churnStart A c E B).2.toNat c.toNat
    (UInt64.lt_iff_toNat_lt.mp hc)
  have hleft := @churn_left_lt c b (churnStart A c E B).2 (le_of_lt c.toNat_lt)
  refine ⟨t - b, by rw [consumeChurn, hs, Except.ok_bind]; rfl, ?_⟩
  rw [UInt64.toNat_sub, ht]
  have := b.toNat_lt
  omega

/-- When the balance and the churn fit in 64 bits together, the budget the request lands in does
not wrap and covers the balance: the last subtraction is exact. -/
theorem churnSchedule_covers (hc : 0 < c) (hstart : (churnStart A c E B).1 < 2 ^ 64)
    (hfit : b.toNat + c.toNat ≤ 2 ^ 64) :
    ∃ e t, churnSchedule A c E B b = .ok (e, t) ∧ b ≤ t := by
  obtain ⟨t, hs, ht⟩ := @churnSchedule_ok A c E B b hc hstart
  refine ⟨_, t, hs, UInt64.le_iff_toNat_le.mpr ?_⟩
  generalize (churnStart A c E B).2 = budget at ht
  have hcover := @le_add_epochsNeeded_mul b.toNat budget.toNat c.toNat
    (UInt64.lt_iff_toNat_lt.mp hc)
  have hsmall : budget.toNat + epochsNeeded b.toNat budget.toNat c.toNat * c.toNat < 2 ^ 64 := by
    by_cases hlt : budget.toNat < b.toNat
    · have := @add_epochsNeeded_mul_lt b.toNat budget.toNat c.toNat hlt
      omega
    · rw [epochsNeeded, if_pos (not_lt.mp hlt), Nat.zero_mul, Nat.add_zero]
      exact budget.toNat_lt
  rw [ht, Nat.mod_eq_of_lt hsmall]
  exact hcover

end Body

/-! ## Runs -/

/-- One request on a queue, returning the queue's new earliest epoch. -/
def churnCall (A : Nat) (c : UInt64) (q : Nat × UInt64) (b : UInt64) :
    Except String (Nat × (Nat × UInt64)) :=
  (fun q' => (q'.1, q')) <$> consumeChurn A c q.1 q.2 b

/-- The queue after it met demand, read as a ledger opened at epoch `E0` with budget `B0`: it
starts `epochsNeeded` epochs after `E0`, with the budget of those epochs less the demand. -/
structure Ledger (A : Nat) (c : UInt64) (E0 B0 demand : Nat) (q : Nat × UInt64) : Prop where
  epoch : (churnStart A c q.1 q.2).1 = E0 + epochsNeeded demand B0 c.toNat
  budget : (churnStart A c q.1 q.2).2.toNat + demand = B0 + epochsNeeded demand B0 c.toNat * c.toNat

section Run

variable {A : Nat} {c : UInt64}

theorem Ledger.start (q : Nat × UInt64) :
    Ledger A c (churnStart A c q.1 q.2).1 (churnStart A c q.1 q.2).2.toNat 0 q where
  epoch := by rw [epochsNeeded, if_pos (Nat.zero_le _), Nat.add_zero]
  budget := by rw [epochsNeeded, if_pos (Nat.zero_le _), Nat.zero_mul, Nat.add_zero]

theorem Ledger.step (hc : 0 < c) {E0 B0 demand : Nat} {q : Nat × UInt64} (b : UInt64)
    (h : Ledger A c E0 B0 demand q) (hroom : E0 + epochsNeeded (demand + b.toNat) B0 c.toNat < 2 ^ 64) :
    ∃ q', churnCall A c q b = .ok (E0 + epochsNeeded (demand + b.toNat) B0 c.toNat, q') ∧
      Ledger A c E0 B0 (demand + b.toNat) q' ∧ churnStart A c q'.1 q'.2 = q' := by
  have hpos : 0 < c.toNat := UInt64.lt_iff_toNat_lt.mp hc
  have hneed : epochsNeeded (demand + b.toNat) B0 c.toNat =
      epochsNeeded demand B0 c.toNat + epochsNeeded b.toNat (churnStart A c q.1 q.2).2.toNat c.toNat := by
    rw [epochsNeeded_add hpos, ← h.budget, Nat.add_sub_cancel]
  have hepoch : (churnStart A c q.1 q.2).1 + epochsNeeded b.toNat (churnStart A c q.1 q.2).2.toNat c.toNat =
      E0 + epochsNeeded (demand + b.toNat) B0 c.toNat := by
    rw [h.epoch, hneed, Nat.add_assoc]
  obtain ⟨left, hcons, hleft⟩ := @consumeChurn_ok A c q.1 q.2 b hc (hepoch ▸ hroom)
  have hstart : churnStart A c ((churnStart A c q.1 q.2).1 +
      epochsNeeded b.toNat (churnStart A c q.1 q.2).2.toNat c.toNat) left =
      ((churnStart A c q.1 q.2).1 + epochsNeeded b.toNat (churnStart A c q.1 q.2).2.toNat c.toNat, left) :=
    churnStart_of_le (le_churnStart.trans (Nat.le_add_right _ _))
  refine ⟨(_, left), ?_, ⟨?_, ?_⟩, hstart⟩
  · rw [churnCall, hcons, ← hepoch]
    rfl
  · show (churnStart A c _ left).1 = _
    rw [hstart, hepoch]
  · show (churnStart A c _ left).2.toNat + (demand + b.toNat) = _
    have hbudget := h.budget
    rw [hstart, hneed, Nat.add_mul]
    show left.toNat + _ = _
    omega

/-- A run of requests on a ledger hands out the first-fit epochs of their balances and keeps the
ledger; after one request at least, the queue is its own start. -/
theorem churnRun_ledger (hc : 0 < c) {E0 B0 : Nat} :
    ∀ (l : List UInt64) (demand : Nat) (q : Nat × UInt64), Ledger A c E0 B0 demand q →
      E0 + epochsNeeded (demand + (l.map UInt64.toNat).sum) B0 c.toNat < 2 ^ 64 →
      ∃ q', Loop.runEach (churnCall A c) q l =
          .ok (firstFit E0 B0 c.toNat demand (l.map UInt64.toNat), q') ∧
        Ledger A c E0 B0 (demand + (l.map UInt64.toNat).sum) q' ∧
        (l ≠ [] → churnStart A c q'.1 q'.2 = q')
  | [], demand, q, h, _ => ⟨q, rfl, by simpa using h, fun hl => absurd rfl hl⟩
  | b :: rest, demand, q, h, hroom => by
    have hpos : 0 < c.toNat := UInt64.lt_iff_toNat_lt.mp hc
    have hsum : demand + ((b :: rest).map UInt64.toNat).sum =
        demand + b.toNat + (rest.map UInt64.toNat).sum := by
      rw [List.map_cons, List.sum_cons, Nat.add_assoc]
    rw [hsum] at hroom
    have hroom1 : E0 + epochsNeeded (demand + b.toNat) B0 c.toNat < 2 ^ 64 :=
      lt_of_le_of_lt (Nat.add_le_add_left (epochsNeeded_mono hpos (Nat.le_add_right _ _)) _) hroom
    obtain ⟨q1, hcall, hled1, hstart1⟩ := h.step hc b hroom1
    obtain ⟨q', hrun, hled, hstart⟩ := churnRun_ledger hc rest (demand + b.toNat) q1 hled1 hroom
    refine ⟨q', ?_, ?_, fun _ => ?_⟩
    · rw [Loop.runEach_cons, hcall, Except.ok_bind]
      simp only [hrun, Except.ok_bind]
      rfl
    · simpa [Nat.add_assoc] using hled
    · cases rest with
      | nil =>
        rw [Loop.runEach_nil, Except.ok_inj, Prod.mk.injEq] at hrun
        exact hrun.2 ▸ hstart1
      | cons => exact hstart (List.cons_ne_nil _ _)

end Run

/-- The last epoch a run of balances takes from a queue, its first-fit epoch for their sum, fits
in 64 bits: no epoch of the run wraps. -/
def ChurnRoom (A : Nat) (c : UInt64) (q : Nat × UInt64) (bs : List UInt64) : Prop :=
  (churnStart A c q.1 q.2).1 + epochsNeeded (bs.map UInt64.toNat).sum (churnStart A c q.1 q.2).2.toNat
    c.toNat < 2 ^ 64

instance ChurnRoom.instDecidable (A : Nat) (c : UInt64) (q : Nat × UInt64) (bs : List UInt64) :
    Decidable (ChurnRoom A c q bs) :=
  Nat.decLt _ _

/-- A method of a state that, read through its queue, is `churnCall A c` on every state that a
property its calls keep admits. -/
structure ChurnMethod {σ : Type} (call : σ → UInt64 → Except String (Nat × σ))
    (queue : σ → Nat × UInt64) (A : Nat) (c : UInt64) (P : σ → Prop) : Prop where
  keep : ∀ s a b s', P s → call s a = .ok (b, s') → P s'
  sim : ∀ s a, P s → Prod.map id queue <$> call s a = churnCall A c (queue s) a

/-- The accounting of a run of a churn method over the balances `bs`: the epochs it returns do not
decrease and are at least the activation-exit epoch; what the run consumed and what it leaves is
the budget of the epoch it started in and a churn for every later epoch it reached; and every
call whose balance fits in 64 bits with the churn subtracts without wrapping. -/
structure ChurnAccounting {σ : Type} (call : σ → UInt64 → Except String (Nat × σ))
    (queue : σ → Nat × UInt64) (A : Nat) (c : UInt64) (s : σ) (bs : List UInt64) : Prop where
  run : ∃ epochs s', Loop.runEach call s bs = .ok (epochs, s') ∧ epochs.Pairwise (· ≤ ·) ∧
    (∀ e ∈ epochs, A ≤ e) ∧
    (bs.map UInt64.toNat).sum + (queue s').2.toNat =
      (churnStart A c (queue s).1 (queue s).2).2.toNat +
        ((queue s').1 - (churnStart A c (queue s).1 (queue s).2).1) * c.toNat
  exact : ∀ pre b post, bs = pre ++ b :: post → b.toNat + c.toNat ≤ 2 ^ 64 →
    ∃ epochs sk e t, Loop.runEach call s pre = .ok (epochs, sk) ∧
      churnSchedule A c (queue sk).1 (queue sk).2 b = .ok (e, t) ∧ b ≤ t

namespace ChurnMethod

variable {σ : Type} {call : σ → UInt64 → Except String (Nat × σ)} {queue : σ → Nat × UInt64}
  {A : Nat} {c : UInt64} {P : σ → Prop}

theorem run_ledger (h : ChurnMethod call queue A c P) (hc : 0 < c) {s : σ} (hs : P s)
    {l : List UInt64} (hroom : ChurnRoom A c (queue s) l) :
    ∃ epochs s', Loop.runEach call s l = .ok (epochs, s') ∧
      epochs = firstFit (churnStart A c (queue s).1 (queue s).2).1
        (churnStart A c (queue s).1 (queue s).2).2.toNat c.toNat 0 (l.map UInt64.toNat) ∧
      Ledger A c (churnStart A c (queue s).1 (queue s).2).1
        (churnStart A c (queue s).1 (queue s).2).2.toNat (l.map UInt64.toNat).sum (queue s') ∧
      (l ≠ [] → churnStart A c (queue s').1 (queue s').2 = queue s') := by
  obtain ⟨q', hrun, hled, hstart⟩ := churnRun_ledger hc l 0 (queue s) (Ledger.start (queue s))
    (by rw [Nat.zero_add]; exact hroom)
  have hsim := Loop.runEach_sim P queue h.keep h.sim l s hs
  rw [hrun, Except.map_eq_ok] at hsim
  obtain ⟨⟨epochs, s'⟩, hcall, heq⟩ := hsim
  simp only [Prod.map, id, Prod.mk.injEq] at heq
  obtain ⟨rfl, rfl⟩ := heq
  exact ⟨_, s', hcall, rfl, by simpa using hled, hstart⟩

/-- Every run of a churn method with a positive churn whose epochs fit in 64 bits has the
accounting. -/
theorem accounting (h : ChurnMethod call queue A c P) (hc : 0 < c) {s : σ} (hs : P s)
    {bs : List UInt64} (hbs : bs ≠ []) (hroom : ChurnRoom A c (queue s) bs) :
    ChurnAccounting call queue A c s bs where
  run := by
    obtain ⟨epochs, s', hcall, rfl, hled, hstart⟩ := h.run_ledger hc hs hroom
    have hpos : 0 < c.toNat := UInt64.lt_iff_toNat_lt.mp hc
    refine ⟨_, s', hcall, firstFit_pairwise hpos _ 0, fun e he => ?_, ?_⟩
    · exact le_churnStart.trans ((Nat.le_add_right _ _).trans (le_of_mem_firstFit hpos he))
    · have hepoch := hled.epoch
      have hbudget := hled.budget
      rw [hstart hbs] at hepoch hbudget
      rw [hepoch, Nat.add_sub_cancel_left]
      omega
  exact := by
    intro pre b post hsplit hfit
    have hpos : 0 < c.toNat := UInt64.lt_iff_toNat_lt.mp hc
    have hsum : (pre.map UInt64.toNat).sum ≤ (bs.map UInt64.toNat).sum := by
      rw [hsplit, List.map_append, List.sum_append]
      exact Nat.le_add_right _ _
    have hroom' : ChurnRoom A c (queue s) pre :=
      lt_of_le_of_lt (Nat.add_le_add_left (epochsNeeded_mono hpos hsum) _) hroom
    obtain ⟨epochs, sk, hcall, -, hled, -⟩ := h.run_ledger hc hs hroom'
    have hstart : (churnStart A c (queue sk).1 (queue sk).2).1 < 2 ^ 64 := by
      rw [hled.epoch]
      exact hroom'
    obtain ⟨e, t, hsched, hle⟩ :=
      @churnSchedule_covers A _ (queue sk).1 (queue sk).2 _ hc hstart hfit
    exact ⟨epochs, sk, e, t, hcall, hsched, hle⟩

end ChurnMethod

namespace BeaconState

/-- Within one epoch and one registry, `compute_exit_epoch_and_update_churn` is a churn method of
the exit queue. -/
theorem exitChurnMethod (s₀ : BeaconState) :
    ChurnMethod computeExitEpochAndUpdateChurn exitQueue
      (computeActivationExitEpoch s₀.getCurrentEpoch) s₀.getActivationExitChurnLimit
      (fun s => s.getCurrentEpoch = s₀.getCurrentEpoch ∧
        s.getActivationExitChurnLimit = s₀.getActivationExitChurnLimit) where
  keep := by
    intro s a b s' hs h
    simp only [computeExitEpochAndUpdateChurn, Except.bind_eq_ok, Except.pure_eq_ok] at h
    obtain ⟨_, -, heq⟩ := h
    cases heq
    exact hs
  sim := by
    intro s a hs
    rw [computeExitEpochAndUpdateChurn, churnCall, hs.1, hs.2]
    dsimp only [exitQueue]
    cases consumeChurn (computeActivationExitEpoch s₀.getCurrentEpoch)
      s₀.getActivationExitChurnLimit s.earliestExitEpoch s.exitBalanceToConsume a <;> rfl

/-- Within one epoch and one registry, `compute_consolidation_epoch_and_update_churn` is a churn
method of the consolidation queue. -/
theorem consolidationChurnMethod (s₀ : BeaconState) :
    ChurnMethod computeConsolidationEpochAndUpdateChurn consolidationQueue
      (computeActivationExitEpoch s₀.getCurrentEpoch) s₀.getConsolidationChurnLimit
      (fun s => s.getCurrentEpoch = s₀.getCurrentEpoch ∧
        s.getConsolidationChurnLimit = s₀.getConsolidationChurnLimit) where
  keep := by
    intro s a b s' hs h
    simp only [computeConsolidationEpochAndUpdateChurn, Except.bind_eq_ok,
      Except.pure_eq_ok] at h
    obtain ⟨_, -, heq⟩ := h
    cases heq
    exact hs
  sim := by
    intro s a hs
    rw [computeConsolidationEpochAndUpdateChurn, churnCall, hs.1, hs.2]
    dsimp only [consolidationQueue]
    cases consumeChurn (computeActivationExitEpoch s₀.getCurrentEpoch)
      s₀.getConsolidationChurnLimit s.earliestConsolidationEpoch
      s.consolidationBalanceToConsume a <;> rfl

/-- Exit churn, and consolidation churn where `process_consolidation_request`'s guard lets a
request through, conserve balance over every non-empty run of requests in one epoch whose epochs
fit in 64 bits. -/
theorem churn_accounting_conserves_balance (s : BeaconState) (bs : List UInt64) (hbs : bs ≠ []) :
    (ChurnRoom (computeActivationExitEpoch s.getCurrentEpoch) s.getActivationExitChurnLimit
        s.exitQueue bs →
      ChurnAccounting computeExitEpochAndUpdateChurn exitQueue
        (computeActivationExitEpoch s.getCurrentEpoch) s.getActivationExitChurnLimit s bs) ∧
      (MIN_ACTIVATION_BALANCE < s.getConsolidationChurnLimit →
        ChurnRoom (computeActivationExitEpoch s.getCurrentEpoch) s.getConsolidationChurnLimit
          s.consolidationQueue bs →
        ChurnAccounting computeConsolidationEpochAndUpdateChurn consolidationQueue
          (computeActivationExitEpoch s.getCurrentEpoch) s.getConsolidationChurnLimit s bs) := by
  refine ⟨(exitChurnMethod s).accounting s.getActivationExitChurnLimit_pos ⟨rfl, rfl⟩ hbs,
    fun hguard => ?_⟩
  have hc : 0 < s.getConsolidationChurnLimit :=
    UInt64.lt_iff_toNat_lt.mpr (Nat.lt_of_le_of_lt (Nat.zero_le _) (UInt64.lt_iff_toNat_lt.mp hguard))
  exact (consolidationChurnMethod s).accounting hc ⟨rfl, rfl⟩ hbs

end BeaconState

/-! ## Registries for the churn -/

/-- A state with no validators: the total active balance is one increment, so both churns are
their minimum, `MIN_PER_EPOCH_CHURN_LIMIT_ELECTRA` for exits and nothing for consolidations. -/
def emptyRegistry : BeaconState where
  slot := 0
  validators := []
  balances := []
  previousEpochParticipation := []
  currentEpochParticipation := []
  inactivityScores := []
  finalizedCheckpoint := ⟨0, 0⟩
  eth1DepositIndex := 0
  depositRequestsStartIndex := 0
  depositBalanceToConsume := 0
  exitBalanceToConsume := 0
  earliestExitEpoch := 0
  consolidationBalanceToConsume := 0
  earliestConsolidationEpoch := 0
  pendingDeposits := []
  pendingPartialWithdrawals := []
  nextWithdrawalIndex := 0
  nextWithdrawalValidatorIndex := 0
  currentSyncCommittee := []

/-- One active validator of `2 ^ 60` gwei: the balance churn is 17592 ETH, and the consolidation
churn left beside the 256 ETH of exits passes `process_consolidation_request`'s guard. -/
def heavyRegistry : BeaconState :=
  { emptyRegistry with
    validators := [⟨0, 0, 2 ^ 60, false, 0, 0, FAR_FUTURE_EPOCH, FAR_FUTURE_EPOCH⟩]
    balances := [2 ^ 60] }

theorem heavyRegistry_consolidations_accounted :
    MIN_ACTIVATION_BALANCE < heavyRegistry.getConsolidationChurnLimit ∧
      ChurnRoom (computeActivationExitEpoch heavyRegistry.getCurrentEpoch)
        heavyRegistry.getConsolidationChurnLimit heavyRegistry.consolidationQueue
        [32000000000, 2048000000000] ∧
      ChurnAccounting BeaconState.computeConsolidationEpochAndUpdateChurn
        BeaconState.consolidationQueue (computeActivationExitEpoch heavyRegistry.getCurrentEpoch)
        heavyRegistry.getConsolidationChurnLimit heavyRegistry [32000000000, 2048000000000] := by
  have hguard : MIN_ACTIVATION_BALANCE < heavyRegistry.getConsolidationChurnLimit := by
    decide +kernel
  have hroom : ChurnRoom (computeActivationExitEpoch heavyRegistry.getCurrentEpoch)
      heavyRegistry.getConsolidationChurnLimit heavyRegistry.consolidationQueue
      [32000000000, 2048000000000] := by
    decide +kernel
  exact ⟨hguard, hroom, (BeaconState.churn_accounting_conserves_balance heavyRegistry
    [32000000000, 2048000000000] (by decide)).2 hguard hroom⟩

/-- The empty registry's exit queue two epochs short of `2 ^ 64`. -/
def lateExitQueueRegistry : BeaconState := { emptyRegistry with earliestExitEpoch := 2 ^ 64 - 2 }

/-- A balance within one churn of `2 ^ 64`: the budget the request lands in wraps to less than
the balance, so the last subtraction of `compute_exit_epoch_and_update_churn` wraps too. And a
queue two epochs short of `2 ^ 64`: the three epochs a 300 ETH exit needs wrap the epoch returned
to 1, before the activation-exit epoch 5. -/
theorem exit_churn_budget_wraps :
    (churnSchedule (computeActivationExitEpoch emptyRegistry.getCurrentEpoch)
        emptyRegistry.getActivationExitChurnLimit emptyRegistry.earliestExitEpoch
        emptyRegistry.exitBalanceToConsume 18446744073709551615 =
      .ok (144115193, 118290448384) ∧
    (118290448384 : UInt64) < 18446744073709551615) ∧
    ((lateExitQueueRegistry.computeExitEpochAndUpdateChurn 300000000000).map Prod.fst = .ok 1 ∧
      computeActivationExitEpoch lateExitQueueRegistry.getCurrentEpoch = 5) := by
  decide +kernel

end Ream.Beacon.Electra
