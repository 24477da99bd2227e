import Ream.ForkChoice.Aggregation
import Ream.ForkChoice.Acceptance
import Ream.ForkChoice.Finality

/-!
# Referential integrity of the attestation pool

`PoolLinked`: every payload key's data root is in `attestation_data_by_root`. Every operation but
pruning and aggregation only adds, pruning drops data with the keys that name it, and the service
(`Node.step`) keeps the pool linked while it never prunes with a job pending.
-/

namespace Ream.ForkChoice

open Ssz Ream.Consensus EStateM

variable (T : TreeHash)

/-! ## The invariant -/

/-- Every key of a payload table names a root of the table of data. -/
def KeysResolve (table : AssocMap B256 AttestationData)
    (payloads : AssocMap SignatureKey (List PayloadProof)) : Prop :=
  ∀ key ∈ payloads.keys, (table.get? key.dataRoot).isSome

/-- Referential integrity of the pool: the data root of every payload key is stored. -/
structure PoolLinked (s : Store) : Prop where
  new_linked : KeysResolve s.attestationDataByRoot s.latestNewAggregatedPayloads
  known_linked : KeysResolve s.attestationDataByRoot s.latestKnownAggregatedPayloads

/-- Every root of the table of data is the root of the data stored under it. -/
def DataHashed (s : Store) : Prop :=
  ∀ root data, s.attestationDataByRoot.get? root = some data → T.dataRoot data = root

/-- What the pool's operations keep. -/
structure PoolInvariant (s : Store) : Prop where
  hashed : DataHashed T s
  linked : PoolLinked s

section KeysResolve

variable {table table' : AssocMap B256 AttestationData}
  {payloads payloads' : AssocMap SignatureKey (List PayloadProof)}

theorem KeysResolve.empty (table : AssocMap B256 AttestationData) :
    KeysResolve table AssocMap.empty := by
  intro key hkey
  rw [AssocMap.keys_empty] at hkey
  cases hkey

theorem KeysResolve.insert (h : KeysResolve table payloads) {key : SignatureKey}
    (hroot : (table.get? key.dataRoot).isSome) (proofs : List PayloadProof) :
    KeysResolve table (payloads.insert key proofs) := by
  intro key' hkey'
  rcases (AssocMap.mem_keys_insert _ _ _ _).mp hkey' with rfl | hmem
  · exact hroot
  · exact h key' hmem

theorem KeysResolve.mono (h : KeysResolve table payloads)
    (hroots : ∀ root, (table.get? root).isSome → (table'.get? root).isSome) :
    KeysResolve table' payloads :=
  fun key hkey => hroots _ (h key hkey)

/-- Pruning a set of roots from the table and every key naming one of them keeps the keys
resolved. -/
theorem KeysResolve.retain_stale (h : KeysResolve table payloads) (staleRoots : List B256) :
    KeysResolve (table.retain fun root _ => root ∉ staleRoots)
      (payloads.retain fun key _ => key.dataRoot ∉ staleRoots) := by
  intro key hkey
  obtain ⟨proofs, hget, hfresh⟩ := AssocMap.mem_keys_retain.mp hkey
  have hresolved := h key ((AssocMap.mem_keys _ _).mpr (by rw [hget]; rfl))
  obtain ⟨data, hdata⟩ := Option.isSome_iff_exists.mp hresolved
  rw [AssocMap.get?_retain, hdata]
  simpa [Option.filter] using hfresh

end KeysResolve

/-- Keys that a write only moves between the payload tables stay resolved when the table of
data is left as it was. -/
theorem PoolLinked.of_keys {s s' : Store}
    (hdata : s'.attestationDataByRoot = s.attestationDataByRoot)
    (hnew : ∀ key ∈ s'.latestNewAggregatedPayloads.keys,
      key ∈ s.latestNewAggregatedPayloads.keys ∨ key ∈ s.latestKnownAggregatedPayloads.keys)
    (hknown : ∀ key ∈ s'.latestKnownAggregatedPayloads.keys,
      key ∈ s.latestNewAggregatedPayloads.keys ∨ key ∈ s.latestKnownAggregatedPayloads.keys)
    (h : PoolLinked s) : PoolLinked s' := by
  have hold : ∀ key, key ∈ s.latestNewAggregatedPayloads.keys ∨
      key ∈ s.latestKnownAggregatedPayloads.keys →
      (s'.attestationDataByRoot.get? key.dataRoot).isSome := by
    rintro key (hkey | hkey)
    · rw [hdata]
      exact h.new_linked key hkey
    · rw [hdata]
      exact h.known_linked key hkey
  exact ⟨fun key hkey => hold key (hnew key hkey), fun key hkey => hold key (hknown key hkey)⟩

/-! ## Writes that keep the pool growing -/

/-- How every operation but pruning and aggregation changes the pool: each root of the table
of data stays, and the invariant is kept. -/
structure PoolGrows (s s' : Store) : Prop where
  roots_kept : ∀ root, (s.attestationDataByRoot.get? root).isSome →
    (s'.attestationDataByRoot.get? root).isSome
  invariant : PoolInvariant T s → PoolInvariant T s'

theorem PoolGrows.refl (s : Store) : PoolGrows T s s :=
  ⟨fun _ h => h, id⟩

theorem PoolGrows.trans (a b c : Store) (hab : PoolGrows T a b) (hbc : PoolGrows T b c) :
    PoolGrows T a c :=
  ⟨fun root h => hbc.roots_kept root (hab.roots_kept root h),
    fun h => hbc.invariant (hab.invariant h)⟩

/-- A write that leaves the table of data as it is keeps the pool growing when it keeps the
payload keys resolved. -/
theorem PoolGrows.of_data_eq {s s' : Store}
    (hdata : s'.attestationDataByRoot = s.attestationDataByRoot)
    (hlinked : PoolLinked s → PoolLinked s') : PoolGrows T s s' where
  roots_kept root h := by
    rw [hdata]
    exact h
  invariant h := by
    refine ⟨?_, hlinked h.linked⟩
    intro root data hget
    rw [hdata] at hget
    exact h.hashed root data hget

theorem PoolGrows.of_pool {s s' : Store}
    (hdata : s'.attestationDataByRoot = s.attestationDataByRoot)
    (hnew : s'.latestNewAggregatedPayloads = s.latestNewAggregatedPayloads)
    (hknown : s'.latestKnownAggregatedPayloads = s.latestKnownAggregatedPayloads) :
    PoolGrows T s s' :=
  PoolGrows.of_data_eq T hdata (PoolLinked.of_keys hdata (fun _ hkey => .inl (hnew ▸ hkey))
    (fun _ hkey => .inr (hknown ▸ hkey)))

/-- A loop of writes that keep the pool growing while `P` holds keeps it growing, when the
growth keeps `P`. -/
theorem PoolGrows.foldl {α : Type} {f : Store → α → Store} (P : Store → Prop)
    (hP : ∀ s s', P s → PoolGrows T s s' → P s') :
    ∀ {l : List α}, (∀ s, ∀ a ∈ l, P s → PoolGrows T s (f s a)) →
      ∀ {s : Store}, P s → PoolGrows T s (l.foldl f s)
  | [], _, s, _ => PoolGrows.refl T s
  | a :: l, hf, s, hs => by
    rw [List.foldl_cons]
    have hfirst := hf s a List.mem_cons_self hs
    exact PoolGrows.trans T _ _ _ hfirst (PoolGrows.foldl P hP
      (fun s' b hb => hf s' b (List.mem_cons_of_mem a hb)) (hP _ _ hs hfirst))

/-- A loop of writes that keep the pool growing once a root is stored, from a store that has
it. -/
theorem PoolGrows.foldl_of_root {α : Type} {f : Store → α → Store} {root : B256}
    {l : List α} (hf : ∀ s, ∀ a ∈ l, (s.attestationDataByRoot.get? root).isSome →
      PoolGrows T s (f s a))
    {s : Store} (hs : (s.attestationDataByRoot.get? root).isSome) : PoolGrows T s (l.foldl f s) :=
  PoolGrows.foldl T (fun s => (s.attestationDataByRoot.get? root).isSome)
    (fun _ _ h hg => hg.roots_kept root h) hf hs

theorem insertData_grows (s : Store) (data : AttestationData) :
    PoolGrows T s
      { s with
        attestationDataByRoot := s.attestationDataByRoot.insert (T.dataRoot data) data } where
  roots_kept root h := by
    rw [AssocMap.get?_insert]
    split
    · rfl
    · exact h
  invariant h := by
    refine ⟨?_, ⟨h.linked.new_linked.mono ?_, h.linked.known_linked.mono ?_⟩⟩
    · intro root data' hget
      rw [AssocMap.get?_insert] at hget
      split at hget
      · rename_i hroot
        cases hget
        exact hroot.symm
      · exact h.hashed root data' hget
    all_goals
      intro root hroot
      rw [AssocMap.get?_insert]
      split
      · rfl
      · exact hroot

theorem recordNewPayload_grows {s : Store} {data : AttestationData} {dataRoot : B256}
    (hroot : (s.attestationDataByRoot.get? dataRoot).isSome) (proof : PayloadProof)
    (validator : Nat) : PoolGrows T s (s.recordNewPayload data dataRoot proof validator) := by
  unfold Store.recordNewPayload
  split
  · exact PoolGrows.refl T s
  · exact PoolGrows.of_data_eq T rfl fun h => ⟨h.new_linked.insert hroot _, h.known_linked⟩

theorem recordPayload_grows {s : Store} {dataRoot : B256}
    (hroot : (s.attestationDataByRoot.get? dataRoot).isSome) (payload : PayloadProof)
    (validatorId : Nat) : PoolGrows T s (s.recordPayload dataRoot payload validatorId) :=
  PoolGrows.of_data_eq T rfl fun h => ⟨h.new_linked, h.known_linked.insert hroot _⟩

theorem get?_insertData_isSome (s : Store) (data : AttestationData) :
    (({ s with attestationDataByRoot := s.attestationDataByRoot.insert (T.dataRoot data) data } :
      Store).attestationDataByRoot.get? (T.dataRoot data)).isSome := by
  simp

theorem recordBlockAttestations_grows (s : Store) (attestations : List AggregatedAttestation) :
    PoolGrows T s (s.recordBlockAttestations T attestations) := by
  unfold Store.recordBlockAttestations
  refine PoolGrows.foldl T (fun _ => True) (fun _ _ _ _ => trivial) (fun t a _ _ => ?_) trivial
  exact PoolGrows.trans T _ _ _ (insertData_grows T t a.message)
    (PoolGrows.foldl_of_root T (fun t' v _ hroot => recordPayload_grows T hroot _ v)
      (get?_insertData_isSome T t a.message))

/-! ## The store's operations -/

variable (verifyBlockProof : BlockProofVerifier) (verifyAggregate : AggregateVerifier)
  (secondsPerSlot : Nat)

theorem updateHead_grows : Keeps (PoolGrows T) updateHead := by
  intro s
  rw [updateHead_run]
  cases s.headAndFinalized with
  | ok r => exact PoolGrows.of_pool T rfl rfl rfl
  | error e => exact PoolGrows.refl T s

theorem onBlock_grows (signedBlock : SignedBlock) (verifySignatures : Bool) :
    Keeps (PoolGrows T) (onBlock T verifyBlockProof signedBlock verifySignatures) := by
  intro s
  rw [onBlock_run]
  split
  · exact PoolGrows.refl T s
  · cases s.prepareBlock T verifyBlockProof signedBlock verifySignatures with
    | error e => exact PoolGrows.refl T s
    | ok postState =>
      have hstored : PoolGrows T s
          (s.storeBlock T (signedBlock.block.treeHashRoot T) signedBlock postState) :=
        PoolGrows.of_pool T rfl rfl rfl
      cases checkDistinctAttestationData T signedBlock.block.body.attestations.data with
      | error e => exact hstored
      | ok seen =>
        exact PoolGrows.trans T _ _ _ hstored (PoolGrows.trans T _ _ _
          (recordBlockAttestations_grows T _ _) (updateHead_grows T _))

theorem mergeNewPayloads_grows (s : Store) : PoolGrows T s s.mergeNewPayloads := by
  have hdata : s.mergeNewPayloads.attestationDataByRoot = s.attestationDataByRoot := by
    rw [mergeNewPayloads_eq]
  refine PoolGrows.of_data_eq T hdata (PoolLinked.of_keys hdata ?_ ?_)
  · intro key hkey
    rw [mergeNewPayloads_eq, AssocMap.keys_empty] at hkey
    cases hkey
  · intro key hkey
    exact ((mem_mergeNewPayloads_keys s key).mp hkey).symm

theorem dropSupersededPayloads_grows (s : Store) :
    PoolGrows T s s.dropSupersededPayloads := by
  obtain ⟨hnew, hdata⟩ := dropSupersededPayloads_tables s
  refine PoolGrows.of_data_eq T hdata (PoolLinked.of_keys hdata (fun _ hkey => .inl (hnew ▸ hkey))
    fun key hkey => .inr ?_)
  obtain ⟨proofs, hget⟩ := Option.isSome_iff_exists.mp ((AssocMap.mem_keys _ _).mp hkey)
  rw [AssocMap.mem_keys, ((dropSupersededPayloads_get? s key proofs).mp hget).1]
  rfl

theorem acceptNewAttestations_grows : Keeps (PoolGrows T) acceptNewAttestations :=
  Keeps.bind (PoolGrows.trans T) (Keeps.modify (mergeNewPayloads_grows T)) fun _ =>
    Keeps.bind (PoolGrows.trans T) (Keeps.modify (dropSupersededPayloads_grows T)) fun _ =>
      updateHead_grows T

theorem updateSafeTarget_grows : Keeps (PoolGrows T) updateSafeTarget := by
  refine Keeps.get_bind fun s => ?_
  rw [run_bind]
  cases s.safeTargetRoot with
  | ok root => exact PoolGrows.of_pool T rfl rfl rfl
  | error e => exact PoolGrows.refl T s

theorem tickInterval_grows (hasProposal : Bool) :
    Keeps (PoolGrows T) (tickInterval hasProposal) := by
  refine Keeps.bind (PoolGrows.trans T) (Keeps.modify fun s => PoolGrows.of_pool T rfl rfl rfl)
    fun _ => ?_
  refine Keeps.get_bind fun s => ?_
  dsimp only
  split_ifs
  · exact acceptNewAttestations_grows T s
  · exact PoolGrows.refl T s
  · exact updateSafeTarget_grows T s
  · exact acceptNewAttestations_grows T s
  · exact PoolGrows.refl T s

theorem tickLoop_grows (tickIntervalTime : Nat) (hasProposal : Bool) :
    ∀ fuel, Keeps (PoolGrows T) (tickLoop tickIntervalTime hasProposal fuel)
  | 0 => Keeps.pure (PoolGrows.refl T) ()
  | fuel + 1 => by
    refine Keeps.get_bind fun s => ?_
    split
    · exact Keeps.bind (PoolGrows.trans T) (tickInterval_grows T _)
        (fun _ => tickLoop_grows tickIntervalTime hasProposal fuel) s
    · exact PoolGrows.refl T s

theorem onTick_grows (time : Nat) (hasProposal : Bool) :
    Keeps (PoolGrows T) (onTick secondsPerSlot time hasProposal) := by
  refine Keeps.get_bind fun s => ?_
  refine Keeps.bind (PoolGrows.trans T) (Keeps.ofExcept (PoolGrows.refl T) _) (fun _ => ?_) s
  exact Keeps.ite (Keeps.pure (PoolGrows.refl T) _) (tickLoop_grows T _ _ _)

theorem onGossipAggregatedAttestation_grows (signedAttestation : SignedAggregatedAttestation)
    (verify : Bool) :
    Keeps (PoolGrows T)
      (onGossipAggregatedAttestation T verifyAggregate signedAttestation verify) := by
  refine Keeps.bind (PoolGrows.trans T) (Keeps.get (PoolGrows.refl T)) fun s => ?_
  refine Keeps.bind (PoolGrows.trans T) (Keeps.ofExcept (PoolGrows.refl T) _) fun _ => ?_
  refine Keeps.ite (Keeps.throw (PoolGrows.refl T) _) ?_
  refine Keeps.bind (PoolGrows.trans T) (Keeps.ofExcept (PoolGrows.refl T) _) fun _ => ?_
  refine Keeps.bind (PoolGrows.trans T) (Keeps.ofExcept (PoolGrows.refl T) _) fun _ => ?_
  refine Keeps.ite (Keeps.throw (PoolGrows.refl T) _) (Keeps.modify fun t => ?_)
  exact PoolGrows.trans T _ _ _ (insertData_grows T t signedAttestation.data)
    (PoolGrows.foldl_of_root T (fun _ v _ hroot => recordNewPayload_grows T hroot _ v)
      (get?_insertData_isSome T t signedAttestation.data))

theorem StoreOp.run_grows {op : StoreOp} (hop : op ≠ .pruneStaleAttestationData) :
    Keeps (PoolGrows T) (op.run T verifyBlockProof verifyAggregate secondsPerSlot) := by
  cases op with
  | onBlock signedBlock verifySignatures => exact onBlock_grows T verifyBlockProof _ _
  | acceptNewAttestations => exact acceptNewAttestations_grows T
  | updateHead => exact updateHead_grows T
  | onTick time hasProposal => exact onTick_grows T secondsPerSlot time hasProposal
  | onGossipAggregatedAttestation signedAttestation verify =>
    exact onGossipAggregatedAttestation_grows T verifyAggregate signedAttestation verify
  | pruneStaleAttestationData => exact absurd rfl hop

/-! ## Gossip signatures -/

theorem keepGossipSignature_grows (s : Store) (committeeCount validatorId : Nat)
    (dataRoot : B256) (signature : Signature) (isAggregator : Bool) :
    PoolGrows T s
      (s.keepGossipSignature committeeCount validatorId dataRoot signature isAggregator) := by
  unfold Store.keepGossipSignature
  split
  · split
    · exact PoolGrows.of_pool T rfl rfl rfl
    · exact PoolGrows.refl T s
  · exact PoolGrows.refl T s

theorem onGossipAttestation_grows (verifySignature : SignatureVerifier) (committeeCount : Nat)
    (signedAttestation : SignedAttestation) (signature : Signature) (isAggregator : Bool) :
    Keeps (PoolGrows T)
      (onGossipAttestation T verifySignature committeeCount signedAttestation signature
        isAggregator) := by
  refine Keeps.bind (PoolGrows.trans T) (Keeps.get (PoolGrows.refl T)) fun s => ?_
  refine Keeps.bind (PoolGrows.trans T) (Keeps.ofExcept (PoolGrows.refl T) _) fun _ => ?_
  dsimp only
  split
  · refine Keeps.bind (PoolGrows.trans T) (Keeps.pure (PoolGrows.refl T) _) fun keyState => ?_
    split
    · exact Keeps.throw (PoolGrows.refl T) _
    · refine Keeps.bind (PoolGrows.trans T) (Keeps.ofExcept (PoolGrows.refl T) _) fun _ => ?_
      refine Keeps.ite (Keeps.throw (PoolGrows.refl T) _) (Keeps.modify fun t => ?_)
      exact PoolGrows.trans T _ _ _ (keepGossipSignature_grows T t _ _ _ _ _)
        (insertData_grows T _ signedAttestation.message)
  · exact Keeps.throw_bind (PoolGrows.refl T) _ _

/-! ## Pruning -/

theorem pruneStaleAttestationData_invariant {s : Store} (h : PoolInvariant T s) :
    PoolInvariant T s.pruneStaleAttestationData := by
  unfold Store.pruneStaleAttestationData
  dsimp only
  split
  · refine (PoolGrows.of_pool T ?_ ?_ ?_).invariant h <;> rfl
  · refine ⟨?_, ⟨h.linked.new_linked.retain_stale _, h.linked.known_linked.retain_stale _⟩⟩
    intro root data hget
    rw [AssocMap.get?_retain, Option.filter_eq_some_iff] at hget
    exact h.hashed root data hget.1

/-! ## Applying aggregates -/

theorem aggregateApply_run (signedAttestations : List SignedAggregatedAttestation) (s : Store) :
    (aggregateApply T signedAttestations).run s =
      .ok ()
        (let s' : Store := (nextNewPayloads T signedAttestations).entries.foldl
            (fun s (key, proofs) => s.addNewProofs key proofs) s;
          { s' with
            attestationSignatures := s'.attestationSignatures.retain fun key _ =>
              key.dataRoot ∉ signedAttestations.map fun a => T.dataRoot a.data }) :=
  rfl

theorem mem_keys_foldl_insert_root {root : B256} {proof : PayloadProof} (validators : List Nat)
    (next : AssocMap SignatureKey (List PayloadProof)) (key : SignatureKey)
    (hkey : key ∈ (validators.foldl (fun next validatorId =>
        next.insert ⟨validatorId, root⟩ (next.getD ⟨validatorId, root⟩ [] ++ [proof])) next).keys) :
    key ∈ next.keys ∨ key.dataRoot = root := by
  refine @AssocMap.mem_keys_foldl _ _ _ _ (fun k => k.dataRoot = root) _
    (fun m v _ k hk => ?_) next key hkey
  rcases (AssocMap.mem_keys_insert _ _ _ _).mp hk with rfl | hmem
  · exact .inr rfl
  · exact .inl hmem

theorem mem_nextNewPayloads_keys {signedAttestations : List SignedAggregatedAttestation}
    {key : SignatureKey} (h : key ∈ (nextNewPayloads T signedAttestations).keys) :
    ∃ a ∈ signedAttestations, key.dataRoot = T.dataRoot a.data := by
  unfold nextNewPayloads at h
  have hstep : ∀ (next : AssocMap SignatureKey (List PayloadProof)), ∀ a ∈ signedAttestations,
      ∀ k ∈ (a.proof.toValidatorIndices.foldl (fun next validatorId =>
          next.insert ⟨validatorId, T.dataRoot a.data⟩
            (next.getD ⟨validatorId, T.dataRoot a.data⟩ [] ++ [a.proof])) next).keys,
        k ∈ next.keys ∨ ∃ a ∈ signedAttestations, k.dataRoot = T.dataRoot a.data := by
    intro next a ha k hk
    exact (mem_keys_foldl_insert_root _ next k hk).imp id fun hroot => ⟨a, ha, hroot⟩
  rcases AssocMap.mem_keys_foldl hstep AssocMap.empty key h with hempty | hroot
  · rw [AssocMap.keys_empty] at hempty
    cases hempty
  · exact hroot

theorem addNewProofs_grows {s : Store} {key : SignatureKey}
    (hroot : (s.attestationDataByRoot.get? key.dataRoot).isSome) (proofs : List PayloadProof) :
    PoolGrows T s (s.addNewProofs key proofs) :=
  PoolGrows.of_data_eq T rfl fun h => ⟨h.new_linked.insert hroot _, h.known_linked⟩

theorem aggregateApply_grows {s : Store} {signedAttestations : List SignedAggregatedAttestation}
    (hdata : ∀ a ∈ signedAttestations,
      (s.attestationDataByRoot.get? (T.dataRoot a.data)).isSome) :
    PoolGrows T s ((aggregateApply T signedAttestations).run s).state := by
  rw [aggregateApply_run, Result.state_ok]
  refine PoolGrows.trans T _ _ _ (PoolGrows.foldl T
    (fun t => ∀ a ∈ signedAttestations, (t.attestationDataByRoot.get? (T.dataRoot a.data)).isSome)
    (fun _ _ ht hg a ha => hg.roots_kept _ (ht a ha)) (fun t e he ht => ?_) hdata)
    (PoolGrows.of_pool T rfl rfl rfl)
  obtain ⟨key, proofs⟩ := e
  have hkey : key ∈ (nextNewPayloads T signedAttestations).keys := List.mem_map_of_mem he
  obtain ⟨a, ha, hroot⟩ := mem_nextNewPayloads_keys T hkey
  exact addNewProofs_grows T (hroot ▸ ht a ha) proofs

/-! ## Preparing the jobs -/

theorem mem_keys_fileUnderData {β : Type} {s : Store} {m : AssocMap AttestationData β}
    {key : SignatureKey} {value : AttestationData → β} {d : AttestationData}
    (hd : d ∈ (match s.attestationDataByRoot.get? key.dataRoot with
      | some data => m.insert data (value data)
      | none => m).keys) :
    d ∈ m.keys ∨ ∃ key : SignatureKey, s.attestationDataByRoot.get? key.dataRoot = some d := by
  split at hd
  · rename_i stored hget
    rcases (AssocMap.mem_keys_insert _ _ _ _).mp hd with rfl | hmem
    · exact .inr ⟨key, hget⟩
    · exact .inl hmem
  · exact .inl hd

theorem mem_signatureGroups_keys {s : Store} {data : AttestationData}
    (h : data ∈ s.signatureGroups.keys) :
    ∃ key : SignatureKey, s.attestationDataByRoot.get? key.dataRoot = some data := by
  unfold Store.signatureGroups at h
  exact (@AssocMap.mem_keys_foldl _ _ _ _
    (fun d => ∃ key : SignatureKey, s.attestationDataByRoot.get? key.dataRoot = some d) _
    (fun _ _ _ _ hd => mem_keys_fileUnderData hd) AssocMap.empty data h).resolve_left (by simp)

theorem mem_payloadsByData_keys {s : Store} {table : AssocMap SignatureKey (List PayloadProof)}
    {data : AttestationData} (h : data ∈ (s.payloadsByData table).keys) :
    ∃ key : SignatureKey, s.attestationDataByRoot.get? key.dataRoot = some data := by
  unfold Store.payloadsByData at h
  refine (@AssocMap.mem_keys_foldl _ _ _ _
    (fun d => ∃ key : SignatureKey, s.attestationDataByRoot.get? key.dataRoot = some d) _
    (fun payloads entry _ d hd => ?_) AssocMap.empty data h).resolve_left (by simp)
  obtain ⟨key, proofs⟩ := entry
  exact mem_keys_fileUnderData hd

theorem prepareJob_data {s : Store} {headState : LeanState}
    {groups : AssocMap AttestationData (List Nat)}
    {newPayloads knownPayloads : AssocMap AttestationData (HashSet PayloadProof)}
    {data : AttestationData} {job : AggregationJob}
    (h : s.prepareJob T headState groups newPayloads knownPayloads data = .ok (some job)) :
    job.data = data := by
  unfold Store.prepareJob at h
  rw [Except.bind_eq_ok] at h
  obtain ⟨⟨childProofs, covered⟩, -, h⟩ := h
  rw [Except.bind_eq_ok] at h
  obtain ⟨⟨childProofs', covered'⟩, -, h⟩ := h
  dsimp only at h
  split at h <;>
  · split at h
    · simp at h
    · obtain ⟨bits, -, h⟩ := Except.bind_eq_ok.mp h
      obtain ⟨wires, -, h⟩ := Except.map_eq_ok.mp h
      rw [← Option.some.inj h]

theorem aggregatePrepare_resolves {s : Store} (hhash : DataHashed T s)
    {jobs : List AggregationJob} (h : s.aggregatePrepare T = .ok jobs) :
    ∀ job ∈ jobs, s.attestationDataByRoot.get? (T.dataRoot job.data) = some job.data := by
  unfold Store.aggregatePrepare at h
  dsimp only at h
  split at h
  case h_2 =>
    obtain ⟨_, hnone, -⟩ := Except.bind_eq_ok.mp h
    cases hnone
  obtain ⟨headState, -, h⟩ := Except.bind_eq_ok.mp h
  obtain ⟨prepared, hprepared, h⟩ := Except.bind_eq_ok.mp h
  rw [Except.pure_eq_ok] at h
  intro job hjob
  rw [← h] at hjob
  obtain ⟨data, hdata, hjob'⟩ :=
    Loop.mem_of_filterMapM_eq_ok hprepared job ((List.perm_insertionSort _ _).mem_iff.mp hjob)
  rw [prepareJob_data T hjob']
  have hkey : data ∈ s.signatureGroups.keys ∨
      data ∈ (s.payloadsByData s.latestNewAggregatedPayloads).keys := by
    rcases List.mem_append.mp (List.mem_filter.mp hdata).1 with hgroup | hnew
    · exact .inl hgroup
    · exact .inr (List.mem_filter.mp hnew).1
  obtain ⟨key, hget⟩ := hkey.elim mem_signatureGroups_keys mem_payloadsByData_keys
  rw [hhash key.dataRoot data hget]
  exact hget

theorem proveAggregationJobs_data {prove : AggregateProver} {jobs : List AggregationJob}
    {signedAttestations : List SignedAggregatedAttestation}
    (h : proveAggregationJobs prove jobs = .ok signedAttestations) :
    ∀ a ∈ signedAttestations, ∃ job ∈ jobs, a.data = job.data := by
  intro a ha
  obtain ⟨job, hjob, hprove⟩ := Loop.mem_of_mapM_eq_ok h a ha
  obtain ⟨proof, -, hpure⟩ := Except.bind_eq_ok.mp hprove
  rw [Except.pure_eq_ok] at hpure
  exact ⟨job, hjob, by rw [← hpure]⟩

/-! ## The node and its aggregation task -/

/-- What happens to an aggregating node's store: one of the store's operations, a gossiped
attestation, or a step of the off-loop aggregation task. Each holds the store's lock for its
whole run, so a run of the node is a sequence of them. -/
inductive NodeEvent where
  | op (op : StoreOp)
  | gossipAttestation (signedAttestation : SignedAttestation) (signature : Signature)
      (isAggregator : Bool)
  /-- Interval 2: a task starts, unless one is in flight, and prepares its jobs. -/
  | aggregatePrepare
  /-- The task proves its next job outside the store, then applies the proof. -/
  | aggregateApply
  /-- The task gives up its remaining jobs at its deadline. -/
  | aggregateStop

/-- Does the event prune the pool? -/
def NodeEvent.prunes : NodeEvent → Bool
  | .op .pruneStaleAttestationData => true
  | _ => false

/-- An aggregating node: its store, and the jobs its aggregation task has prepared and not
applied yet. -/
structure Node where
  store : Store
  pendingJobs : List AggregationJob

variable (verifySignature : SignatureVerifier) (committeeCount : Nat) (prove : AggregateProver)

/-- One event of the node. A job whose proof fails ends the task. -/
def Node.step (n : Node) : NodeEvent → Node
  | .op op =>
    { n with
      store := ((op.run T verifyBlockProof verifyAggregate secondsPerSlot).run n.store).state }
  | .gossipAttestation signedAttestation signature isAggregator =>
    { n with
      store := ((onGossipAttestation T verifySignature committeeCount signedAttestation signature
        isAggregator).run n.store).state }
  | .aggregatePrepare =>
    -- `aggregation_in_flight`: no second task while one runs
    if n.pendingJobs.isEmpty then
      match n.store.aggregatePrepare T with
      | .ok jobs => { n with pendingJobs := jobs }
      | .error _ => n
    else n
  | .aggregateApply =>
    match n.pendingJobs with
    | [] => n
    | job :: rest =>
      match proveAggregationJobs prove [job] with
      | .ok signedAttestations =>
        ⟨((aggregateApply T signedAttestations).run n.store).state, rest⟩
      | .error _ => { n with pendingJobs := [] }
  | .aggregateStop => { n with pendingJobs := [] }

/-- The node after a sequence of events. -/
def Node.run : List NodeEvent → Node → Node
  | [], n => n
  | e :: events, n =>
    Node.run events
      (n.step T verifyBlockProof verifyAggregate secondsPerSlot verifySignature committeeCount
        prove e)

/-- The run prunes only while no job is pending. -/
def PrunesIdle : List NodeEvent → Node → Prop
  | [], _ => True
  | e :: events, n => (e.prunes = true → n.pendingJobs = []) ∧
    PrunesIdle events
      (n.step T verifyBlockProof verifyAggregate secondsPerSlot verifySignature committeeCount
        prove e)

instance PrunesIdle.decidable : ∀ (events : List NodeEvent) (n : Node),
    Decidable (PrunesIdle T verifyBlockProof verifyAggregate secondsPerSlot verifySignature
      committeeCount prove events n)
  | [], _ => isTrue trivial
  | e :: events, n =>
    have := PrunesIdle.decidable events
      (n.step T verifyBlockProof verifyAggregate secondsPerSlot verifySignature committeeCount
        prove e)
    inferInstanceAs (Decidable (_ ∧ _))

/-- The pool's invariant, and the data of every pending job stored under its root. -/
structure NodeInvariant (n : Node) : Prop where
  pool : PoolInvariant T n.store
  pending : ∀ job ∈ n.pendingJobs,
    (n.store.attestationDataByRoot.get? (T.dataRoot job.data)).isSome

theorem NodeInvariant.of_grows {n : Node} {s' : Store} (hgrows : PoolGrows T n.store s')
    (h : NodeInvariant T n) : NodeInvariant T { n with store := s' } :=
  ⟨hgrows.invariant h.pool, fun job hjob => hgrows.roots_kept _ (h.pending job hjob)⟩

theorem NodeInvariant.of_idle {n : Node} (hpool : PoolInvariant T n.store)
    (hidle : n.pendingJobs = []) : NodeInvariant T n := by
  refine ⟨hpool, fun job hjob => ?_⟩
  rw [hidle] at hjob
  cases hjob

theorem aggregateApply_invariant {n : Node} (h : NodeInvariant T n) :
    NodeInvariant T
      (n.step T verifyBlockProof verifyAggregate secondsPerSlot verifySignature committeeCount prove
        .aggregateApply) := by
  dsimp only [Node.step]
  split
  · exact h
  · rename_i job rest hjobs
    split
    · rename_i signedAttestations hprove
      have hdata : ∀ a ∈ signedAttestations,
          (n.store.attestationDataByRoot.get? (T.dataRoot a.data)).isSome := by
        intro a ha
        obtain ⟨job', hjob', hsame⟩ := proveAggregationJobs_data hprove a ha
        rw [List.mem_singleton.mp hjob'] at hsame
        rw [hsame]
        exact h.pending job (by rw [hjobs]; exact List.mem_cons_self)
      have hgrows := aggregateApply_grows T hdata
      refine ⟨hgrows.invariant h.pool, fun job' hjob' => hgrows.roots_kept _ ?_⟩
      exact h.pending job' (by rw [hjobs]; exact List.mem_cons_of_mem job hjob')
    · exact NodeInvariant.of_idle T h.pool rfl

theorem Node.step_invariant {n : Node} (h : NodeInvariant T n) (e : NodeEvent)
    (hidle : e.prunes = true → n.pendingJobs = []) :
    NodeInvariant T
      (n.step T verifyBlockProof verifyAggregate secondsPerSlot verifySignature committeeCount prove
        e) := by
  cases e with
  | op op =>
    by_cases hop : op = .pruneStaleAttestationData
    · subst hop
      exact NodeInvariant.of_idle T (pruneStaleAttestationData_invariant T h.pool) (hidle rfl)
    · exact NodeInvariant.of_grows T
        (StoreOp.run_grows T verifyBlockProof verifyAggregate secondsPerSlot hop n.store) h
  | gossipAttestation signedAttestation signature isAggregator =>
    exact NodeInvariant.of_grows T (onGossipAttestation_grows T verifySignature committeeCount
      signedAttestation signature isAggregator n.store) h
  | aggregatePrepare =>
    dsimp only [Node.step]
    split
    · split
      · rename_i jobs hjobs
        refine ⟨h.pool, fun job hjob => ?_⟩
        rw [aggregatePrepare_resolves T h.pool.hashed hjobs job hjob]
        rfl
      · exact h
    · exact h
  | aggregateApply =>
    exact aggregateApply_invariant T verifyBlockProof verifyAggregate secondsPerSlot
      verifySignature committeeCount prove h
  | aggregateStop => exact NodeInvariant.of_idle T h.pool rfl

theorem Node.run_invariant : ∀ (events : List NodeEvent) {n : Node}, NodeInvariant T n →
    PrunesIdle T verifyBlockProof verifyAggregate secondsPerSlot verifySignature committeeCount
      prove events n →
    NodeInvariant T
      (Node.run T verifyBlockProof verifyAggregate secondsPerSlot verifySignature committeeCount
        prove events n)
  | [], _, h, _ => h
  | e :: events, _, h, ⟨hidle, hrest⟩ =>
    Node.run_invariant events (Node.step_invariant T verifyBlockProof verifyAggregate
      secondsPerSlot verifySignature committeeCount prove h e hidle) hrest

theorem getForkchoiceStore_grows {db s : Store} {anchorBlock : SignedBlock}
    {anchorState : LeanState} {time : Option Nat}
    (h : getForkchoiceStore T secondsPerSlot db anchorBlock anchorState time = .ok s) :
    PoolGrows T db s := by
  unfold getForkchoiceStore at h
  split at h
  · cases h
  · cases h
    exact PoolGrows.of_pool T rfl rfl rfl

theorem not_poolLinked_of_orphan {s : Store} (key : SignatureKey)
    (hkey : key ∈ s.latestNewAggregatedPayloads.keys)
    (hroot : s.attestationDataByRoot.get? key.dataRoot = none) : ¬ PoolLinked s := by
  intro h
  have hresolved := h.new_linked key hkey
  rw [hroot] at hresolved
  cases hresolved

/-! ## Runs of a fresh aggregator -/

/-- The aggregator's database before its start: no tables yet, and validator 0. -/
def aggregatorDb : Store := { Store.empty with validatorId := some 0 }

theorem aggregatorDb_invariant : PoolInvariant polyHash aggregatorDb := by
  refine ⟨?_, ⟨KeysResolve.empty _, KeysResolve.empty _⟩⟩
  intro root data hget
  cases hget

/-- The validator's vote for genesis, at slot 0. -/
def genesisVote : AttestationData :=
  { slot := 0, head := ⟨genesisRoot, 0⟩, target := ⟨genesisRoot, 0⟩, source := ⟨genesisRoot, 0⟩ }

/-- A signature check that accepts every signature. -/
def acceptSignature : SignatureVerifier := fun _ _ _ _ => .ok true

/-- A prover that returns the empty proof. -/
def emptyProver : AggregateProver := fun _ _ _ _ => .ok []

/-- The vote gossiped to the aggregator, its job prepared and applied, then a prune. -/
def idleRun : List NodeEvent :=
  [.gossipAttestation ⟨0, genesisVote⟩ [] true, .aggregatePrepare, .aggregateApply,
    .op .pruneStaleAttestationData]

/-- From a database whose pool keeps the invariant, every run of the node that prunes only
while no aggregation job is pending ends with the data root of every payload key stored. -/
theorem pool_linked_of_prunes_idle {db s0 : Store} {anchorBlock : SignedBlock}
    {anchorState : LeanState} {time : Option Nat} (hdb : PoolInvariant T db)
    (h0 : getForkchoiceStore T secondsPerSlot db anchorBlock anchorState time = .ok s0)
    (events : List NodeEvent)
    (hidle : PrunesIdle T verifyBlockProof verifyAggregate secondsPerSlot verifySignature
      committeeCount prove events ⟨s0, []⟩) :
    PoolLinked (Node.run T verifyBlockProof verifyAggregate secondsPerSlot verifySignature
      committeeCount prove events ⟨s0, []⟩).store := by
  have hstart : NodeInvariant T ⟨s0, []⟩ :=
    NodeInvariant.of_idle T ((getForkchoiceStore_grows T secondsPerSlot h0).invariant hdb) rfl
  exact (Node.run_invariant T verifyBlockProof verifyAggregate secondsPerSlot verifySignature
    committeeCount prove events hstart hidle).pool.linked

example :
    ∃ s0, getForkchoiceStore polyHash 4 aggregatorDb polyAnchor polyGenesis (some 100) = .ok s0 ∧
      PrunesIdle polyHash acceptProof acceptAggregate 4 acceptSignature 1 emptyProver idleRun
        ⟨s0, []⟩ ∧
      PoolLinked (Node.run polyHash acceptProof acceptAggregate 4 acceptSignature 1 emptyProver
        idleRun ⟨s0, []⟩).store :=
  ⟨_, rfl, by decide, @pool_linked_of_prunes_idle polyHash acceptProof acceptAggregate 4
    acceptSignature 1 emptyProver aggregatorDb _ polyAnchor polyGenesis (some 100)
    aggregatorDb_invariant rfl idleRun (by decide)⟩

/-- The same events with the prune of interval 1 between the job's preparation and its
application. -/
def racingRun : List NodeEvent :=
  [.gossipAttestation ⟨0, genesisVote⟩ [] true, .aggregatePrepare,
    .op .pruneStaleAttestationData, .aggregateApply]

/-- From genesis, an aggregator keeps a gossiped vote for genesis and prepares its job. The
prune of the next interval finds the vote's data at the finalized slot and named by no payload,
and drops it; the job's proof is then stored under a key whose data is gone, and extracting the
new payloads finds no vote of the validator. Runs that prune only while no job is pending keep
every key linked (`pool_linked_of_prunes_idle`). -/
theorem aggregation_race_orphans_payload :
    ∃ s0 n, getForkchoiceStore polyHash 4 aggregatorDb polyAnchor polyGenesis (some 100) = .ok s0 ∧
      PoolInvariant polyHash s0 ∧
      Node.run polyHash acceptProof acceptAggregate 4 acceptSignature 1 emptyProver racingRun
        ⟨s0, []⟩ = n ∧
      n.store.latestNewAggregatedPayloads.keys = [⟨0, polyHash.dataRoot genesisVote⟩] ∧
      n.store.attestationDataByRoot.get? (polyHash.dataRoot genesisVote) = none ∧
      ¬ PoolLinked n.store ∧
      (n.store.extractAttestationsFromAggregatedPayloads
        n.store.latestNewAggregatedPayloads.keys).get? 0 = none :=
  ⟨_, _, rfl, (@getForkchoiceStore_grows polyHash 4 aggregatorDb _ polyAnchor polyGenesis (some 100)
    rfl).invariant aggregatorDb_invariant, rfl,
    by decide, by decide,
    not_poolLinked_of_orphan ⟨0, polyHash.dataRoot genesisVote⟩ (by decide) (by decide),
    by decide⟩

end Ream.ForkChoice
