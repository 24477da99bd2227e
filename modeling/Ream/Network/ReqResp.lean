import Mathlib

/-!
# The req/resp wire codec for requests

`OutboundSSZSnappyCodec::encode` and `InboundSSZSnappyCodec::decode`: the varint length of the
SSZ bytes, then the bytes in snappy frames. The varint and the framing are parameters with laws
(`WireCodec.Lawful`), met by the LEB128 varint with stored frames (`uviStoredCodec_lawful`).
-/

namespace Ream.Network

inductive BeaconSupportedProtocol where
  | beaconBlocksByRangeV2
  | beaconBlocksByRootV2
  | blobSidecarsByRangeV1
  | blobSidecarsByRootV1
  | dataColumnSidecarsByRangeV1
  | dataColumnSidecarsByRootV1
  | getMetaDataV2
  | getMetaDataV3
  | goodbyeV1
  | pingV1
  | statusV1
  | statusV2
  deriving DecidableEq, Repr

inductive LeanSupportedProtocol where
  | blocksByRootV1
  | blocksByRangeV1
  | statusV1
  deriving DecidableEq, Repr

inductive SupportedProtocol where
  | beacon (protocol : BeaconSupportedProtocol)
  | lean (protocol : LeanSupportedProtocol)
  deriving DecidableEq, Repr

/-- The two protocols whose requests carry no body. -/
def SupportedProtocol.isGetMetaData : SupportedProtocol → Bool
  | .beacon .getMetaDataV2 | .beacon .getMetaDataV3 => true
  | _ => false

/-- The kinds of `std::io::Error` the frame decoder returns. -/
inductive IoError where
  | unexpectedEof
  | other (message : String)
  deriving DecidableEq, Repr

inductive ReqRespError where
  | varint (message : String)
  | io (err : IoError)
  | ssz (message : String)
  | anyhow (message : String)
  deriving DecidableEq, Repr

/-- The varint and snappy framing the wire format is built from. -/
structure WireCodec where
  varintEncode : Nat → List UInt8
  /-- `Uvi::<usize>::decode`: the value and the bytes it took, `none` to wait for more. -/
  varintDecode : List UInt8 → Except String (Option (Nat × Nat))
  frameEncode : List UInt8 → List UInt8
  /-- `FrameDecoder::read_exact` of `length` bytes over the buffer: the bytes and the
  decoder's position in the buffer. -/
  frameRead : Nat → List UInt8 → Except IoError (List UInt8 × Nat)

/-- The laws of the varint and the framing that the decoder relies on. -/
structure WireCodec.Lawful (c : WireCodec) : Prop where
  varint_decode_encode : ∀ n rest,
    c.varintDecode (c.varintEncode n ++ rest) = .ok (some (n, (c.varintEncode n).length))
  varint_decode_prefix : ∀ n k, k < (c.varintEncode n).length →
    c.varintDecode ((c.varintEncode n).take k) = .ok none
  frame_read_encode : ∀ bytes rest,
    c.frameRead bytes.length (c.frameEncode bytes ++ rest) = .ok (bytes, (c.frameEncode bytes).length)
  frame_read_prefix : ∀ bytes k, k < (c.frameEncode bytes).length →
    c.frameRead bytes.length ((c.frameEncode bytes).take k) = .error .unexpectedEof

/-- The SSZ side of the requests: their bytes, the decoder each protocol uses, and the body-less
`GetMetaData` request. -/
structure RequestCodec (Request : Type) where
  sszBytes : Request → List UInt8
  fromSszBytes : SupportedProtocol → List UInt8 → Except String Request
  isMetaData : Request → Bool
  metaData : Request

variable (c : WireCodec) {Request : Type} (r : RequestCodec Request)

/-- `OutboundSSZSnappyCodec::encode` of a request: the bytes it appends to the buffer. -/
def outboundEncode (maxMessageSize : Nat) (item : Request) : Except ReqRespError (List UInt8) :=
  if r.isMetaData item then .ok []
  else
    let bytes := r.sszBytes item
    if bytes.length > maxMessageSize then
      .error (.anyhow s!"Message size exceeds maximum: {bytes.length} > {maxMessageSize}")
    else .ok (c.varintEncode bytes.length ++ c.frameEncode bytes)

/-- `InboundSSZSnappyCodec::decode`: the result and the buffer as it leaves it. The length
prefix is taken off the buffer before the frames are read. -/
def inboundDecode (protocol : SupportedProtocol) (src : List UInt8) :
    Except ReqRespError (Option Request) × List UInt8 :=
  if protocol.isGetMetaData then (.ok (some r.metaData), src)
  else
    match c.varintDecode src with
    | .error err => (.error (.varint err), src)
    | .ok none => (.ok none, src)
    | .ok (some (length, used)) =>
      let src := src.drop used
      match c.frameRead length src with
      | .ok (buf, position) =>
        (match r.fromSszBytes protocol buf with
          | .ok request => .ok (some request)
          | .error err => .error (.ssz err), src.drop position)
      | .error err => (.error (.io err), src)

/-- The caller of a decoder: each arrival is appended to the buffer, and the decoder is called
again while it asks for more. -/
def feed {ε α : Type} (decode : List UInt8 → Except ε (Option α) × List UInt8) :
    List UInt8 → List (List UInt8) → Except ε (Option α)
  | _, [] => .ok none
  | buf, piece :: rest =>
    match decode (buf ++ piece) with
    | (.ok none, buf') => feed decode buf' rest
    | (.ok (some item), _) => .ok (some item)
    | (.error err, _) => .error err

section Inbound

variable {c} {r} (hc : c.Lawful) {protocol : SupportedProtocol}
  (hp : protocol.isGetMetaData = false) {item : Request}
  (hssz : r.fromSszBytes protocol (r.sszBytes item) = .ok item)

include hc hp hssz in
/-- A request that arrives with the rest of the stream behind it is read, and the stream
after it is left in the buffer. -/
theorem inboundDecode_encode (rest : List UInt8) :
    inboundDecode c r protocol
        (c.varintEncode (r.sszBytes item).length ++ c.frameEncode (r.sszBytes item) ++ rest) =
      (.ok (some item), rest) := by
  simp only [inboundDecode, hp, Bool.false_eq_true, ↓reduceIte, List.append_assoc,
    hc.varint_decode_encode, List.drop_left, hc.frame_read_encode, hssz]

include hc hp in
/-- A buffer that ends inside the length prefix makes the decoder wait and leaves the buffer as
it was. -/
theorem inboundDecode_in_prefix {bytes : List UInt8} {k : Nat}
    (hk : k < (c.varintEncode bytes.length).length) :
    inboundDecode c r protocol ((c.varintEncode bytes.length).take k) =
      (.ok none, (c.varintEncode bytes.length).take k) := by
  simp only [inboundDecode, hp, Bool.false_eq_true, ↓reduceIte, hc.varint_decode_prefix _ _ hk]

include hc hp in
/-- A buffer that ends after the length prefix but inside the frames fails: the prefix has been
taken off, and the frame decoder runs dry in `read_exact`. -/
theorem inboundDecode_in_frames {bytes : List UInt8} {k : Nat}
    (hk : k < (c.frameEncode bytes).length) :
    inboundDecode c r protocol
        (c.varintEncode bytes.length ++ (c.frameEncode bytes).take k) =
      (.error (.io .unexpectedEof), (c.frameEncode bytes).take k) := by
  simp only [inboundDecode, hp, Bool.false_eq_true, ↓reduceIte, hc.varint_decode_encode,
    List.drop_left, hc.frame_read_prefix _ _ hk]

include hc hp hssz in
theorem feed_split_in_prefix {k : Nat} (hk : k < (c.varintEncode (r.sszBytes item).length).length) :
    feed (inboundDecode c r protocol) []
        [(c.varintEncode (r.sszBytes item).length).take k,
          (c.varintEncode (r.sszBytes item).length).drop k ++ c.frameEncode (r.sszBytes item)] =
      .ok (some item) := by
  have hwhole : (c.varintEncode (r.sszBytes item).length).take k ++
      ((c.varintEncode (r.sszBytes item).length).drop k ++ c.frameEncode (r.sszBytes item)) =
      c.varintEncode (r.sszBytes item).length ++ c.frameEncode (r.sszBytes item) ++ [] := by
    rw [← List.append_assoc, List.take_append_drop, List.append_nil]
  simp only [feed, List.nil_append, inboundDecode_in_prefix hc hp hk, hwhole,
    inboundDecode_encode hc hp hssz]

include hc hp in
/-- A request split anywhere inside its frames is refused: the decoder fails on the first
part, although the second would complete it. Split inside its length prefix it is read
(`feed_split_in_prefix`). -/
theorem feed_split_in_frames {k : Nat} (hk : k < (c.frameEncode (r.sszBytes item)).length) :
    feed (inboundDecode c r protocol) []
        [c.varintEncode (r.sszBytes item).length ++ (c.frameEncode (r.sszBytes item)).take k,
          (c.frameEncode (r.sszBytes item)).drop k] =
      .error (.io .unexpectedEof) := by
  simp only [feed, List.nil_append, inboundDecode_in_frames hc hp hk]

end Inbound

/-! ## A lawful codec -/

/-- The LEB128 varint: seven bits a byte, lowest first, the high bit set on every byte but the
last. -/
def uviEncode (n : Nat) : List UInt8 :=
  if n < 128 then [n.toUInt8] else (n % 128 + 128).toUInt8 :: uviEncode (n / 128)
termination_by n
decreasing_by omega

/-- The value at the start of the buffer and the bytes it took; `none` while the buffer ends
inside it. -/
def uviDecode : List UInt8 → Except String (Option (Nat × Nat))
  | [] => .ok none
  | b :: rest =>
    if b.toNat < 128 then .ok (some (b.toNat, 1))
    else
      match uviDecode rest with
      | .ok (some (m, used)) => .ok (some (b.toNat - 128 + 128 * m, used + 1))
      | other => other

theorem toNat_toUInt8_of_lt {n : Nat} (h : n < 256) : n.toUInt8.toNat = n := by
  simp [Nat.mod_eq_of_lt h]

theorem uviDecode_encode (n : Nat) (rest : List UInt8) :
    uviDecode (uviEncode n ++ rest) = .ok (some (n, (uviEncode n).length)) := by
  induction n using Nat.strongRecOn with
  | ind n ih =>
    rw [uviEncode]
    split
    case isTrue small =>
      simp [uviDecode, toNat_toUInt8_of_lt (by omega : n < 256), small]
    case isFalse big =>
      have byte := toNat_toUInt8_of_lt (by omega : n % 128 + 128 < 256)
      simp only [List.cons_append, uviDecode, byte, ih (n / 128) (by omega),
        show ¬(n % 128 + 128 < 128) by omega, ite_false, List.length_cons]
      congr 3
      omega

theorem uviDecode_take (n k : Nat) (hk : k < (uviEncode n).length) :
    uviDecode ((uviEncode n).take k) = .ok none := by
  induction n using Nat.strongRecOn generalizing k with
  | ind n ih =>
    rw [uviEncode] at hk ⊢
    by_cases small : n < 128
    case pos =>
      rw [if_pos small] at hk
      obtain rfl : k = 0 := by simpa using hk
      rfl
    case neg =>
      rw [if_neg small] at hk ⊢
      cases k with
      | zero => rfl
      | succ k =>
        have byte := toNat_toUInt8_of_lt (by omega : n % 128 + 128 < 256)
        simp only [List.length_cons, Nat.add_lt_add_iff_right] at hk
        simp only [List.take_succ_cons, uviDecode, byte, ih (n / 128) (by omega) k hk,
          show ¬(n % 128 + 128 < 128) by omega, ite_false]

/-- Frames of one chunk: a header byte, then the bytes as they are. -/
def storedFrameEncode (bytes : List UInt8) : List UInt8 := 0xff :: bytes

/-- Reads the chunk of a given length behind the header, or runs dry. -/
def storedFrameRead (length : Nat) (buf : List UInt8) : Except IoError (List UInt8 × Nat) :=
  if buf.length < length + 1 then .error .unexpectedEof
  else .ok ((buf.drop 1).take length, length + 1)

def uviStoredCodec : WireCodec where
  varintEncode := uviEncode
  varintDecode := uviDecode
  frameEncode := storedFrameEncode
  frameRead := storedFrameRead

theorem uviStoredCodec_lawful : uviStoredCodec.Lawful where
  varint_decode_encode := uviDecode_encode
  varint_decode_prefix := uviDecode_take
  frame_read_encode bytes rest := by
    simp [uviStoredCodec, storedFrameRead, storedFrameEncode]
  frame_read_prefix bytes k hk := by
    simp only [uviStoredCodec, storedFrameEncode, List.length_cons] at hk ⊢
    simp [storedFrameRead, Nat.le_of_lt_succ hk]

/-- Requests that are their own SSZ bytes, as a ping's eight bytes are. -/
def bytesRequests : RequestCodec (List UInt8) where
  sszBytes := id
  fromSszBytes _ bytes := .ok bytes
  isMetaData _ := false
  metaData := []

/-- A ping split three bytes into its frames is refused. -/
theorem ping_split_in_frames_refused :
    3 < (uviStoredCodec.frameEncode (bytesRequests.sszBytes [1, 0, 0, 0, 0, 0, 0, 0])).length ∧
      feed (inboundDecode uviStoredCodec bytesRequests (.beacon .pingV1)) []
          [uviStoredCodec.varintEncode (bytesRequests.sszBytes [1, 0, 0, 0, 0, 0, 0, 0]).length ++
              (uviStoredCodec.frameEncode (bytesRequests.sszBytes [1, 0, 0, 0, 0, 0, 0, 0])).take 3,
            (uviStoredCodec.frameEncode (bytesRequests.sszBytes [1, 0, 0, 0, 0, 0, 0, 0])).drop 3] =
        .error (.io .unexpectedEof) := by
  have hk : 3 < (uviStoredCodec.frameEncode
      (bytesRequests.sszBytes [1, 0, 0, 0, 0, 0, 0, 0])).length := by decide
  exact ⟨hk, feed_split_in_frames uviStoredCodec_lawful rfl hk⟩

end Ream.Network
