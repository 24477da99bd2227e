import Ream.Beacon.Committee
import Ream.Lib.MerkleHeap
import Ream.Ssz.Containers

/-!
# Hash tree roots

The SSZ roots that the `tree_hash` crate computes for the types the inclusion proofs cover, over a
parameter `hash_concat`. A `u64` turned into `to_le_bytes()` has the root of the `u64` itself
(`bytesRoot_leBytes`).
-/

namespace Ream.Beacon

open Ssz Ream.Consensus

/-- `B256::from_slice`: 32 bytes, most significant first. -/
def fromSlice (bytes : List UInt8) : B256 :=
  ⟨bytes.foldl (fun acc b => acc * 256 + b.toNat) 0 % 2 ^ 256,
    Nat.mod_lt _ (Nat.two_pow_pos 256)⟩

/-- A chunk: at most 32 bytes, padded with zero bytes on the right. -/
def chunk (bytes : List UInt8) : B256 :=
  fromSlice (bytes ++ List.replicate (32 - bytes.length) 0)

/-- `pack`: bytes cut into chunks of 32, the last one padded. -/
def pack (bytes : List UInt8) : List B256 :=
  (List.range ((bytes.length + 31) / 32)).map fun i => chunk ((bytes.drop (32 * i)).take 32)

variable (hashConcat : B256 → B256 → B256)

/-- `merkleize(chunks, limit)`: the root of the perfect tree with room for `limit` chunks, the
chunks from the left and zero roots after them. -/
def merkleize (chunks : List B256) (limit : Nat) : B256 :=
  MerkleHeap.root hashConcat (Nat.clog 2 limit) fun i => chunks.getD i B256.ZERO

/-- `mix_in_length`: a root hashed with a length, as a little-endian 32-byte chunk. -/
def mixInLength (root : B256) (length : Nat) : B256 :=
  hashConcat root (chunk (leBytes length 32))

/-- The root of a byte vector such as `[u8; 8]` or `[u8; 48]`: its chunks, merkleized. -/
def bytesRoot (bytes : List UInt8) : B256 :=
  merkleize hashConcat (pack bytes) (pack bytes).length

/-- The root of a `u64`: its eight little-endian bytes in one chunk. -/
def uint64Root (value : Nat) : B256 := chunk (leBytes value 8)

/-- The root of a container: the padded root of its fields' roots. -/
def containerRoot (fieldRoots : List B256) : B256 :=
  merkleize hashConcat fieldRoots fieldRoots.length

/-- The root of a `VariableList` of composite values: the root of the tree with room for `N`
element roots, with the length mixed in. -/
def VariableList.treeHashRoot {α : Type} {N : Nat} (elementRoot : α → B256)
    (l : VariableList α N) : B256 :=
  mixInLength hashConcat (merkleize hashConcat (l.data.map elementRoot) N) l.data.length

/-! ## The roots the proofs rely on -/

theorem merkleize_eq {chunks : List B256} {limit depth : Nat} (h : Nat.clog 2 limit = depth) :
    merkleize hashConcat chunks limit =
      MerkleHeap.root hashConcat depth fun i => chunks.getD i B256.ZERO := by
  rw [merkleize, h]

theorem pack_of_length_le {bytes : List UInt8} (h0 : 0 < bytes.length) (h : bytes.length ≤ 32) :
    pack bytes = [chunk bytes] := by
  have hone : (bytes.length + 31) / 32 = 1 := by omega
  rw [pack, hone]
  simp [List.take_of_length_le h]

theorem bytesRoot_leBytes (value : Nat) :
    bytesRoot hashConcat (leBytes value 8) = uint64Root value := by
  have hlen : (leBytes value 8).length = 8 := by simp [leBytes]
  rw [bytesRoot, pack_of_length_le (by omega) (by omega)]
  rfl

theorem leBytes_eight_padded {value : Nat} (h : value < 2 ^ 64) :
    leBytes value 8 ++ List.replicate 24 0 = leBytes value 32 := by
  apply List.ext_getElem (by simp [leBytes])
  intro i hi _
  have hi' : i < 32 := by simpa [leBytes] using hi
  by_cases hlow : i < 8
  · rw [List.getElem_append_left (by simpa [leBytes] using hlow)]
    simp [leBytes]
  · rw [List.getElem_append_right (by simpa [leBytes] using hlow), List.getElem_replicate]
    have hpow : 2 ^ 64 ≤ 256 ^ i :=
      calc 2 ^ 64 = 256 ^ 8 := by norm_num
        _ ≤ 256 ^ i := Nat.pow_le_pow_right (by norm_num) (by omega)
    simp [leBytes, Nat.div_eq_of_lt (Nat.lt_of_lt_of_le h hpow)]

theorem lengthChunk_eq {length : Nat} (h : length < 2 ^ 64) :
    bytesRoot hashConcat (leBytes length 8) = chunk (leBytes length 32) := by
  rw [bytesRoot_leBytes, uint64Root, chunk, chunk, ← leBytes_eight_padded h]
  simp [leBytes]

end Ream.Beacon
