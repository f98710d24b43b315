import Elements.Serialize

/-! `uint256` from `uint256.h` and the asset tag `CAsset` of `asset.h`. -/

namespace Elements

open Wire Wire.Decoder

structure Uint256 where
  data : Bytes
  size_data : data.length = 32
  deriving DecidableEq

namespace Uint256

def zero : Uint256 := ⟨List.replicate 32 0, by simp⟩

instance : Inhabited Uint256 := ⟨zero⟩

def IsNull (blob : Uint256) : Bool := blob.data.all (· == 0)

def serialize (blob : Uint256) : Bytes := blob.data

def unserialize : Decoder Uint256 := fun input =>
  if fits : 32 ≤ input.length then
    .ok (⟨input.take 32, by simp only [List.length_take]; omega⟩, input.drop 32)
  else .error endOfData

theorem unserialize_roundTrip (blob : Uint256) : RoundTrip serialize unserialize blob := by
  intro rest
  simp [serialize, unserialize, ← blob.size_data]

theorem unserialize_canonical : Canonical serialize unserialize := by
  intro input blob rest read
  unfold unserialize at read
  split at read
  · cases read
    exact List.take_append_drop 32 input
  · cases read

@[simp] theorem zero_IsNull : zero.IsNull = true := by decide

end Uint256

structure CAsset where
  id : Uint256
  deriving DecidableEq

instance : Inhabited CAsset := ⟨⟨Uint256.zero⟩⟩

def CAsset.IsNull (asset : CAsset) : Bool := asset.id.IsNull

end Elements
