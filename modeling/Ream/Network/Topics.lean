import Ream.Lib.Text

/-! Gossip topic names of the beacon and Lean networks (`gossipsub/{beacon,lean}/topics.rs`),
over a hex codec and a gossipsub `TopicHash` given by their laws. -/

namespace Ream.Network

open Text

/-- Gossipsub's `TopicHash`, given by the law the topic parsers need of it: `as_str` reads back
the text that `from_raw` wrapped. `debug` is its derived `Debug`. -/
structure TopicHashApi where
  Hash : Type
  fromRaw : List Char → Hash
  asStr : Hash → List Char
  debug : Hash → String
  asStr_fromRaw : ∀ s, asStr (fromRaw s) = s

/-- A topic hash that is its text, with the derived `Debug` of a one-field struct. -/
def TopicHashApi.raw : TopicHashApi where
  Hash := List Char
  fromRaw := id
  asStr := id
  debug hash := "TopicHash \x7b hash: " ++ debugStr hash ++ " \x7d"
  asStr_fromRaw _ := rfl

variable (hex : HexCodec) (th : TopicHashApi)

/-- The one `GossipsubError` the topic parsers return. -/
inductive GossipsubError where
  | invalidTopic (message : String)
  deriving DecidableEq, Repr

/-- The layout both formatters write, `"/{TOPIC_PREFIX}/{fork}/{kind}/{ENCODING_POSTFIX}"`. -/
def formatTopic (topicPrefix fork name encodingPostfix : List Char) : List Char :=
  ['/'] ++ topicPrefix ++ ['/'] ++ fork ++ ['/'] ++ name ++ ['/'] ++ encodingPostfix

/-- The first step of both parsers: `trim_start_matches('/')`, then `split('/')`. -/
def topicParts (topic : th.Hash) : List (List Char) :=
  (trimStartMatches '/' (th.asStr topic)).splitOn '/'

/-- A formatted topic splits back into its four parts when none holds a slash and the first is
not empty, so that the trim stops at it. -/
theorem topicParts_formatTopic {p f n e : List Char} (hp : p ≠ [])
    (hslash : ∀ l ∈ [p, f, n, e], '/' ∉ l) :
    topicParts th (th.fromRaw (formatTopic p f n e)) = [p, f, n, e] := by
  obtain ⟨c, rest, rfl⟩ := List.exists_cons_of_ne_nil hp
  have hc : c ≠ '/' := fun h => hslash _ List.mem_cons_self (h ▸ List.mem_cons_self)
  have hformat : formatTopic (c :: rest) f n e = '/' :: ['/'].intercalate [c :: rest, f, n, e] := by
    simp [formatTopic, List.intercalate_cons_cons]
  have htrim : trimStartMatches '/' ('/' :: ['/'].intercalate [c :: rest, f, n, e]) =
      ['/'].intercalate [c :: rest, f, n, e] := by
    rw [trimStartMatches, List.dropWhile_cons, if_pos (beq_self_eq_true '/'),
      List.intercalate_cons_cons, List.cons_append, List.cons_append, List.dropWhile_cons,
      if_neg (by simpa using hc)]
  rw [topicParts, th.asStr_fromRaw, hformat, htrim]
  exact List.splitOn_intercalate '/' hslash (List.cons_ne_nil _ _)

/-! ## Beacon topics -/

namespace Beacon

def TOPIC_PREFIX : List Char := "eth2".toList
def ENCODING_POSTFIX : List Char := "ssz_snappy".toList
def BEACON_BLOCK_TOPIC : List Char := "beacon_block".toList
def BEACON_AGGREGATE_AND_PROOF_TOPIC : List Char := "beacon_aggregate_and_proof".toList
def VOLUNTARY_EXIT_TOPIC : List Char := "voluntary_exit".toList
def PROPOSER_SLASHING_TOPIC : List Char := "proposer_slashing".toList
def ATTESTER_SLASHING_TOPIC : List Char := "attester_slashing".toList
def BEACON_ATTESTATION_PREFIX : List Char := "beacon_attestation_".toList
def SYNC_COMMITTEE_PREFIX_TOPIC : List Char := "sync_committee_".toList
def SYNC_COMMITTEE_CONTRIBUTION_AND_PROOF_TOPIC : List Char :=
  "sync_committee_contribution_and_proof".toList
def BLS_TO_EXECUTION_CHANGE_TOPIC : List Char := "bls_to_execution_change".toList
def LIGHT_CLIENT_FINALITY_UPDATE_TOPIC : List Char := "light_client_finality_update".toList
def LIGHT_CLIENT_OPTIMISTIC_UPDATE_TOPIC : List Char := "light_client_optimistic_update".toList
def BLOB_SIDECAR_PREFIX_TOPIC : List Char := "blob_sidecar_".toList
def DATA_COLUMN_SIDECAR_PREFIX_TOPIC : List Char := "data_column_sidecar_".toList

/-- `B32`: the four bytes of a fork digest. -/
structure B32 where
  bytes : List UInt8
  length_eq : bytes.length = 4
  deriving DecidableEq, Repr

/-- `ToHexExt::encode_hex`. -/
def B32.encodeHex (fork : B32) : List Char := hex.encode fork.bytes

/-- `B32::from_hex`: four bytes, or the decoder's error. -/
def B32.fromHex (s : List Char) : Except String B32 :=
  match hex.decode 4 s with
  | .ok bytes => if h : bytes.length = 4 then .ok ⟨bytes, h⟩ else .error "InvalidStringLength"
  | .error err => .error err

inductive GossipTopicKind where
  | beaconBlock
  | aggregateAndProof
  | voluntaryExit
  | proposerSlashing
  | attesterSlashing
  | beaconAttestation (subnetId : UInt64)
  | syncCommittee (subnetId : UInt64)
  | syncCommitteeContributionAndProof
  | blsToExecutionChange
  | lightClientFinalityUpdate
  | lightClientOptimisticUpdate
  | blobSidecar (subnetId : UInt64)
  | dataColumnSidecar (subnetId : UInt64)
  deriving DecidableEq, Repr

/-- `GossipTopicKind`'s `Display`. -/
def GossipTopicKind.toString : GossipTopicKind → List Char
  | .beaconBlock => BEACON_BLOCK_TOPIC
  | .aggregateAndProof => BEACON_AGGREGATE_AND_PROOF_TOPIC
  | .voluntaryExit => VOLUNTARY_EXIT_TOPIC
  | .proposerSlashing => PROPOSER_SLASHING_TOPIC
  | .attesterSlashing => ATTESTER_SLASHING_TOPIC
  | .beaconAttestation subnetId => BEACON_ATTESTATION_PREFIX ++ displayU64 subnetId
  | .syncCommittee subnetId => SYNC_COMMITTEE_PREFIX_TOPIC ++ displayU64 subnetId
  | .syncCommitteeContributionAndProof => SYNC_COMMITTEE_CONTRIBUTION_AND_PROOF_TOPIC
  | .blsToExecutionChange => BLS_TO_EXECUTION_CHANGE_TOPIC
  | .lightClientFinalityUpdate => LIGHT_CLIENT_FINALITY_UPDATE_TOPIC
  | .lightClientOptimisticUpdate => LIGHT_CLIENT_OPTIMISTIC_UPDATE_TOPIC
  | .blobSidecar subnetId => BLOB_SIDECAR_PREFIX_TOPIC ++ displayU64 subnetId
  | .dataColumnSidecar subnetId => DATA_COLUMN_SIDECAR_PREFIX_TOPIC ++ displayU64 subnetId

structure GossipTopic where
  fork : B32
  kind : GossipTopicKind
  deriving DecidableEq, Repr

/-- `GossipTopic`'s `Display`. -/
def GossipTopic.toString (topic : GossipTopic) : List Char :=
  formatTopic TOPIC_PREFIX (topic.fork.encodeHex hex) topic.kind.toString ENCODING_POSTFIX

/-- `From<GossipTopic> for TopicHash`. -/
def GossipTopic.toTopicHash (topic : GossipTopic) : th.Hash := th.fromRaw (topic.toString hex)

/-- The `get_topic_kind_with_index` closure: the indexed prefixes in order, each followed by a
`u64`. -/
def getTopicKindWithIndex (topic : List Char) : Option GossipTopicKind :=
  if BEACON_ATTESTATION_PREFIX.isPrefixOf topic then
    ((stripPrefix BEACON_ATTESTATION_PREFIX topic).bind fun s => (parseU64 s).toOption).map
      .beaconAttestation
  else if SYNC_COMMITTEE_PREFIX_TOPIC.isPrefixOf topic then
    ((stripPrefix SYNC_COMMITTEE_PREFIX_TOPIC topic).bind fun s => (parseU64 s).toOption).map
      .syncCommittee
  else if BLOB_SIDECAR_PREFIX_TOPIC.isPrefixOf topic then
    ((stripPrefix BLOB_SIDECAR_PREFIX_TOPIC topic).bind fun s => (parseU64 s).toOption).map
      .blobSidecar
  else if DATA_COLUMN_SIDECAR_PREFIX_TOPIC.isPrefixOf topic then
    ((stripPrefix DATA_COLUMN_SIDECAR_PREFIX_TOPIC topic).bind fun s => (parseU64 s).toOption).map
      .dataColumnSidecar
  else none

/-- The arms of the `match` on the kind part that name a kind exactly, in their order. -/
def exactTopicKinds : List (List Char × GossipTopicKind) :=
  [(BEACON_BLOCK_TOPIC, .beaconBlock),
   (BEACON_AGGREGATE_AND_PROOF_TOPIC, .aggregateAndProof),
   (VOLUNTARY_EXIT_TOPIC, .voluntaryExit),
   (PROPOSER_SLASHING_TOPIC, .proposerSlashing),
   (ATTESTER_SLASHING_TOPIC, .attesterSlashing),
   (SYNC_COMMITTEE_CONTRIBUTION_AND_PROOF_TOPIC, .syncCommitteeContributionAndProof),
   (BLS_TO_EXECUTION_CHANGE_TOPIC, .blsToExecutionChange),
   (LIGHT_CLIENT_FINALITY_UPDATE_TOPIC, .lightClientFinalityUpdate),
   (LIGHT_CLIENT_OPTIMISTIC_UPDATE_TOPIC, .lightClientOptimisticUpdate)]

/-- The `match` on the kind part: the first arm whose name is the part, else the last arm,
`get_topic_kind_with_index`. -/
def topicKindOfName (name : List Char) : Option GossipTopicKind :=
  match exactTopicKinds.lookup name with
  | some kind => some kind
  | none => getTopicKindWithIndex name

/-- `GossipTopic::from_topic_hash`. -/
def GossipTopic.fromTopicHash (topic : th.Hash) : Except GossipsubError GossipTopic :=
  match topicParts th topic with
  | [topicPrefix, fork, kind, encodingPostfix] =>
    if topicPrefix = TOPIC_PREFIX ∧ encodingPostfix = ENCODING_POSTFIX then
      match B32.fromHex hex fork with
      | .error err =>
        .error (.invalidTopic ("Invalid topic fork: " ++ th.debug topic ++ " " ++ err))
      | .ok fork =>
        match topicKindOfName kind with
        | some kind => .ok ⟨fork, kind⟩
        | none => .error (.invalidTopic ("Invalid topic: " ++ debugStr kind))
    else .error (.invalidTopic ("Invalid topic format: " ++ th.debug topic))
  | _ => .error (.invalidTopic ("Invalid topic format: " ++ th.debug topic))

theorem B32.fromHex_encodeHex (fork : B32) : B32.fromHex hex (fork.encodeHex hex) = .ok fork := by
  have h := hex.decode_encode fork.bytes
  rw [fork.length_eq] at h
  rw [B32.fromHex, B32.encodeHex, h]
  dsimp only
  rw [dif_pos fork.length_eq]

theorem slash_not_mem_indexed {p : List Char} (hp : '/' ∉ p) (n : UInt64) :
    '/' ∉ p ++ displayU64 n := by
  rw [List.mem_append, not_or]
  refine ⟨hp, fun h => ?_⟩
  have := Nat.isDigit_of_mem_toDigits (by decide) (by decide) h
  revert this
  decide

theorem slash_not_mem_kind (kind : GossipTopicKind) : '/' ∉ kind.toString := by
  cases kind with
  | beaconAttestation n => exact slash_not_mem_indexed (by decide) n
  | syncCommittee n => exact slash_not_mem_indexed (by decide) n
  | blobSidecar n => exact slash_not_mem_indexed (by decide) n
  | dataColumnSidecar n => exact slash_not_mem_indexed (by decide) n
  | _ => decide

theorem exactTopicKinds_digit_free :
    (exactTopicKinds.all fun q => q.1.all fun c => !c.isDigit) = true := by
  decide

/-- An indexed name is no exact name: it holds the digits of its id, and no exact name holds a
digit. This is what keeps `sync_committee_<id>` apart from
`sync_committee_contribution_and_proof`, which the prefix begins. -/
theorem lookup_exactTopicKinds_indexed (p : List Char) (n : UInt64) :
    exactTopicKinds.lookup (p ++ displayU64 n) = none := by
  rw [List.lookup_eq_none_iff]
  intro q hq
  rw [bne_iff_ne]
  intro heq
  have hfree := List.all_eq_true.mp (List.all_eq_true.mp exactTopicKinds_digit_free q hq)
  obtain ⟨c, hc⟩ := List.exists_mem_of_ne_nil (displayU64 n) Nat.toDigits_ne_nil
  have hdigit : c.isDigit = true := Nat.isDigit_of_mem_toDigits (by decide) (by decide) hc
  have hnot := hfree c (heq ▸ List.mem_append_right p hc)
  rw [hdigit] at hnot
  cases hnot

theorem readIndexed (p : List Char) (n : UInt64) (kind : UInt64 → GossipTopicKind) :
    ((stripPrefix p (p ++ displayU64 n)).bind fun s => (parseU64 s).toOption).map kind =
      some (kind n) := by
  rw [stripPrefix_append, Option.bind_some, parseU64_display]
  rfl

/-- Every kind is read back from its name; an indexed one passes the prefix tests before its own,
none of which begins it. -/
theorem topicKindOfName_toString (kind : GossipTopicKind) :
    topicKindOfName kind.toString = some kind := by
  cases kind with
  | beaconAttestation n =>
    rw [GossipTopicKind.toString, topicKindOfName, lookup_exactTopicKinds_indexed _ n,
      getTopicKindWithIndex, if_pos (isPrefixOf_append_self _ _), readIndexed]
  | syncCommittee n =>
    have h1 := @isPrefixOf_append_eq_false BEACON_ATTESTATION_PREFIX SYNC_COMMITTEE_PREFIX_TOPIC
      (displayU64 n) (by decide) (by decide)
    rw [GossipTopicKind.toString, topicKindOfName, lookup_exactTopicKinds_indexed _ n,
      getTopicKindWithIndex, if_neg (ne_true_of_eq_false h1), if_pos (isPrefixOf_append_self _ _),
      readIndexed]
  | blobSidecar n =>
    have h1 := @isPrefixOf_append_eq_false BEACON_ATTESTATION_PREFIX BLOB_SIDECAR_PREFIX_TOPIC
      (displayU64 n) (by decide) (by decide)
    have h2 := @isPrefixOf_append_eq_false SYNC_COMMITTEE_PREFIX_TOPIC BLOB_SIDECAR_PREFIX_TOPIC
      (displayU64 n) (by decide) (by decide)
    rw [GossipTopicKind.toString, topicKindOfName, lookup_exactTopicKinds_indexed _ n,
      getTopicKindWithIndex, if_neg (ne_true_of_eq_false h1), if_neg (ne_true_of_eq_false h2),
      if_pos (isPrefixOf_append_self _ _), readIndexed]
  | dataColumnSidecar n =>
    have h1 := @isPrefixOf_append_eq_false BEACON_ATTESTATION_PREFIX DATA_COLUMN_SIDECAR_PREFIX_TOPIC
      (displayU64 n) (by decide) (by decide)
    have h2 := @isPrefixOf_append_eq_false SYNC_COMMITTEE_PREFIX_TOPIC DATA_COLUMN_SIDECAR_PREFIX_TOPIC
      (displayU64 n) (by decide) (by decide)
    have h3 := @isPrefixOf_append_eq_false BLOB_SIDECAR_PREFIX_TOPIC DATA_COLUMN_SIDECAR_PREFIX_TOPIC
      (displayU64 n) (by decide) (by decide)
    rw [GossipTopicKind.toString, topicKindOfName, lookup_exactTopicKinds_indexed _ n,
      getTopicKindWithIndex, if_neg (ne_true_of_eq_false h1), if_neg (ne_true_of_eq_false h2),
      if_neg (ne_true_of_eq_false h3), if_pos (isPrefixOf_append_self _ _), readIndexed]
  | _ => decide

theorem fromTopicHash_toTopicHash (topic : GossipTopic) :
    GossipTopic.fromTopicHash hex th (topic.toTopicHash hex th) = .ok topic := by
  have hparts : topicParts th (topic.toTopicHash hex th) =
      [TOPIC_PREFIX, topic.fork.encodeHex hex, topic.kind.toString, ENCODING_POSTFIX] := by
    refine topicParts_formatTopic th (by decide) ?_
    simp only [List.mem_cons, List.not_mem_nil, or_false]
    rintro l (rfl | rfl | rfl | rfl)
    · decide
    · exact hex.slash_not_mem_encode topic.fork.bytes
    · exact slash_not_mem_kind topic.kind
    · decide
  rw [GossipTopic.fromTopicHash, hparts]
  dsimp only
  rw [if_pos ⟨rfl, rfl⟩, B32.fromHex_encodeHex]
  dsimp only
  rw [topicKindOfName_toString]

end Beacon

/-! ## Lean consensus topics -/

namespace LeanConsensus

def TOPIC_PREFIX : List Char := "leanconsensus".toList
def ENCODING_POSTFIX : List Char := "ssz_snappy".toList
def LEAN_BLOCK_TOPIC : List Char := "block".toList
def LEAN_ATTESTATION_SUBNET_PREFIX : List Char := "attestation_".toList
def LEAN_AGGREGATION_TOPIC : List Char := "aggregation".toList

inductive LeanGossipTopicKind where
  | block
  | attestationSubnet (subnetId : UInt64)
  | aggregatedAttestation
  deriving DecidableEq, Repr

structure LeanGossipTopic where
  fork : List Char
  kind : LeanGossipTopicKind
  deriving DecidableEq, Repr

/-- `LeanGossipTopic`'s `Display`. -/
def LeanGossipTopic.toString (topic : LeanGossipTopic) : List Char :=
  let topicName := match topic.kind with
    | .block => LEAN_BLOCK_TOPIC
    | .attestationSubnet subnetId => LEAN_ATTESTATION_SUBNET_PREFIX ++ displayU64 subnetId
    | .aggregatedAttestation => LEAN_AGGREGATION_TOPIC
  formatTopic TOPIC_PREFIX topic.fork topicName ENCODING_POSTFIX

/-- `From<LeanGossipTopic> for TopicHash`, which writes the layout a second time. -/
def LeanGossipTopic.toTopicHash (topic : LeanGossipTopic) : th.Hash :=
  let kindStr := match topic.kind with
    | .block => LEAN_BLOCK_TOPIC
    | .attestationSubnet subnetId => LEAN_ATTESTATION_SUBNET_PREFIX ++ displayU64 subnetId
    | .aggregatedAttestation => LEAN_AGGREGATION_TOPIC
  th.fromRaw (formatTopic TOPIC_PREFIX topic.fork kindStr ENCODING_POSTFIX)

/-- `LeanGossipTopic::from_topic_hash`. -/
def LeanGossipTopic.fromTopicHash (topic : th.Hash) : Except GossipsubError LeanGossipTopic :=
  match topicParts th topic with
  | [topicPrefix, fork, topicName, encodingPostfix] =>
    if topicPrefix = TOPIC_PREFIX ∧ encodingPostfix = ENCODING_POSTFIX then
      if topicName = LEAN_BLOCK_TOPIC then .ok ⟨fork, .block⟩
      else if topicName = LEAN_AGGREGATION_TOPIC then .ok ⟨fork, .aggregatedAttestation⟩
      else
        match stripPrefix LEAN_ATTESTATION_SUBNET_PREFIX topicName with
        | some subnetStr =>
          match parseU64 subnetStr with
          | .ok subnetId => .ok ⟨fork, .attestationSubnet subnetId⟩
          | .error err =>
            .error (.invalidTopic ("Invalid attestation subnet id: " ++ debugStr subnetStr ++
              ", error: " ++ err.toString))
        | none => .error (.invalidTopic ("Invalid topic: " ++ debugStr topicName))
    else .error (.invalidTopic ("Invalid topic format: " ++ th.debug topic))
  | _ => .error (.invalidTopic ("Invalid topic format: " ++ th.debug topic))

theorem toTopicHash_eq_fromRaw_toString (topic : LeanGossipTopic) :
    topic.toTopicHash th = th.fromRaw topic.toString := by
  cases topic with
  | mk fork kind => cases kind <;> rfl

/-- The topic name part of a formatted topic, as both formatters write it. -/
def LeanGossipTopicKind.topicName : LeanGossipTopicKind → List Char
  | .block => LEAN_BLOCK_TOPIC
  | .attestationSubnet subnetId => LEAN_ATTESTATION_SUBNET_PREFIX ++ displayU64 subnetId
  | .aggregatedAttestation => LEAN_AGGREGATION_TOPIC

theorem toString_eq (topic : LeanGossipTopic) :
    topic.toString = formatTopic TOPIC_PREFIX topic.fork topic.kind.topicName ENCODING_POSTFIX := by
  cases topic with
  | mk fork kind => cases kind <;> rfl

theorem slash_not_mem_topicName (kind : LeanGossipTopicKind) : '/' ∉ kind.topicName := by
  cases kind with
  | attestationSubnet n => exact Beacon.slash_not_mem_indexed (by decide) n
  | _ => decide

theorem fromTopicHash_toTopicHash {topic : LeanGossipTopic} (hfork : '/' ∉ topic.fork) :
    LeanGossipTopic.fromTopicHash th (topic.toTopicHash th) = .ok topic := by
  have hparts : topicParts th (topic.toTopicHash th) =
      [TOPIC_PREFIX, topic.fork, topic.kind.topicName, ENCODING_POSTFIX] := by
    rw [toTopicHash_eq_fromRaw_toString, toString_eq]
    refine topicParts_formatTopic th (by decide) ?_
    simp only [List.mem_cons, List.not_mem_nil, or_false]
    rintro l (rfl | rfl | rfl | rfl)
    · decide
    · exact hfork
    · exact slash_not_mem_topicName topic.kind
    · decide
  rw [LeanGossipTopic.fromTopicHash, hparts]
  dsimp only
  rw [if_pos ⟨rfl, rfl⟩]
  cases topic with
  | mk fork kind =>
    cases kind with
    | block => rfl
    | aggregatedAttestation => rfl
    | attestationSubnet n =>
      rw [LeanGossipTopicKind.topicName,
        if_neg (append_ne_of_isPrefixOf_eq_false (by decide)),
        if_neg (append_ne_of_isPrefixOf_eq_false (by decide)), stripPrefix_append]
      dsimp only
      rw [parseU64_display]

end LeanConsensus

/-- Under every hex codec and topic hash, every beacon topic, and every Lean topic whose fork has
no slash, is read back from its topic hash; the two Lean formatters write the same text. -/
theorem gossip_topics_round_trip :
    (∀ topic : Beacon.GossipTopic,
      Beacon.GossipTopic.fromTopicHash hex th (topic.toTopicHash hex th) = .ok topic) ∧
    (∀ topic : LeanConsensus.LeanGossipTopic, '/' ∉ topic.fork →
      LeanConsensus.LeanGossipTopic.fromTopicHash th (topic.toTopicHash th) = .ok topic ∧
        topic.toTopicHash th = th.fromRaw topic.toString) :=
  ⟨Beacon.fromTopicHash_toTopicHash hex th, fun _ hfork =>
    ⟨LeanConsensus.fromTopicHash_toTopicHash th hfork,
      LeanConsensus.toTopicHash_eq_fromRaw_toString th _⟩⟩

/-- The contribution topic is read as itself and not as a sync committee subnet, and a Lean
attestation subnet topic with a hex fork reads back. -/
theorem contribution_and_subnet_topics_round_trip :
    Beacon.GossipTopic.fromTopicHash HexCodec.lower TopicHashApi.raw
        (Beacon.GossipTopic.toTopicHash HexCodec.lower TopicHashApi.raw
          ⟨⟨[1, 2, 3, 4], rfl⟩, .syncCommitteeContributionAndProof⟩) =
      .ok ⟨⟨[1, 2, 3, 4], rfl⟩, .syncCommitteeContributionAndProof⟩ ∧
    '/' ∉ "0x12345678".toList ∧
    LeanConsensus.LeanGossipTopic.fromTopicHash TopicHashApi.raw
        (LeanConsensus.LeanGossipTopic.toTopicHash TopicHashApi.raw
          ⟨"0x12345678".toList, .attestationSubnet 7⟩) =
      .ok ⟨"0x12345678".toList, .attestationSubnet 7⟩ :=
  ⟨(gossip_topics_round_trip HexCodec.lower TopicHashApi.raw).1 _, by decide,
    ((gossip_topics_round_trip HexCodec.lower TopicHashApi.raw).2
      ⟨"0x12345678".toList, .attestationSubnet 7⟩ (by decide)).1⟩

end Ream.Network
