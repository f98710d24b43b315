import Elements.Uint256

/-! Hashing as the node calls it (`hash.h`), over the SHA-256 primitives of
`crypto/sha256.cpp`, which are taken as parameters, and the Elements fast
merkle root of `primitives/txwitness.cpp`. -/

namespace Elements

open Wire

structure Hashes where
  sha256 : Bytes → Uint256
  sha256Midstate : Bytes → Uint256
  ripemd160 : Bytes → Bytes

namespace Hashes

variable (H : Hashes)

/-- `CHash256`: SHA-256 applied twice, as `CHashWriter::GetHash` does. -/
def Hash (bytes : Bytes) : Uint256 := H.sha256 (H.sha256 bytes).data

/-- `SerializeHash` of an already serialized object. -/
def SerializeHash (serialized : Bytes) : Uint256 := H.Hash serialized

/-- `Hash160`: RIPEMD-160 of SHA-256. -/
def Hash160 (bytes : Bytes) : Bytes := H.ripemd160 (H.sha256 bytes).data

def MerkleHash_Sha256Midstate (left right : Uint256) : Uint256 :=
  H.sha256Midstate (left.data ++ right.data)

/-- The inner loop for a new leaf: for each low zero bit of `count`, combine
with the subtree stored at that level. Returns the level and the hash to
store there. -/
def absorbLeaf (inner : List Uint256) (count : Nat) : Nat → Nat → Uint256 → Nat × Uint256
  | 0, level, hash => (level, hash)
  | fuel + 1, level, hash =>
      if count.testBit level then (level, hash)
      else absorbLeaf inner count fuel (level + 1)
        (H.MerkleHash_Sha256Midstate (inner.getD level Uint256.zero) hash)

/-- The first loop of `ComputeFastMerkleRoot`: every leaf processed into `inner`. -/
def processLeaves (inner : List Uint256) (count : Nat) : List Uint256 → List Uint256 × Nat
  | [] => (inner, count)
  | leaf :: leaves =>
      let (level, hash) := H.absorbLeaf inner (count + 1) 32 0 leaf
      processLeaves (inner.set level hash) (count + 1) leaves

/-- The lowest set bit of `count` at or above `level`. -/
def skipZeros (count : Nat) : Nat → Nat → Nat
  | 0, level => level
  | fuel + 1, level => if count.testBit level then level else skipZeros count fuel (level + 1)

/-- The inner loop of the final sweep: combine with every stored subtree
until a set bit of `count` is reached. -/
def sweepZeros (inner : List Uint256) (count : Nat) : Nat → Nat → Uint256 → Nat × Uint256
  | 0, level, hash => (level, hash)
  | fuel + 1, level, hash =>
      if count.testBit level then (level, hash)
      else sweepZeros inner count fuel (level + 1)
        (H.MerkleHash_Sha256Midstate (inner.getD level Uint256.zero) hash)

/-- The final sweep over the rightmost branch: an odd node is carried up
level by level until `count` is a power of two. -/
def sweep (inner : List Uint256) : Nat → Nat → Nat → Uint256 → Uint256
  | 0, _, _, hash => hash
  | fuel + 1, count, level, hash =>
      if count = 2 ^ level then hash
      else
        let count := count + 2 ^ level
        let (level, hash) := H.sweepZeros inner count 32 (level + 1) hash
        sweep inner fuel count level hash

def ComputeFastMerkleRoot (hashes : List Uint256) : Uint256 :=
  if hashes.isEmpty then Uint256.zero
  else
    let (inner, count) := H.processLeaves (List.replicate 32 Uint256.zero) 0 hashes
    let level := skipZeros count 32 0
    H.sweep inner 32 count level (inner.getD level Uint256.zero)

theorem ComputeFastMerkleRoot_pair (left right : Uint256) :
    H.ComputeFastMerkleRoot [left, right] = H.MerkleHash_Sha256Midstate left right := rfl

end Hashes

end Elements
