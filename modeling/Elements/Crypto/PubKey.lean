import Elements.Crypto.Secp256k1

/-! `CPubKey` of `pubkey.h`: a public key kept as its encoding, compressed (33 bytes) or not
(65 bytes), whose length is read off its first byte; a key whose first byte announces no length
is invalid. Full validation and decompression go through the library's parser. -/

namespace Elements

open Wire secp256k1

/-- The bytes `begin()`..`end()` of a key, or the single header byte `0xFF` that `Invalidate`
leaves; what follows the header in the fixed array is never read. -/
structure CPubKey where
  vch : Bytes
  deriving DecidableEq

namespace CPubKey

def SIZE : Nat := 65
def COMPRESSED_SIZE : Nat := 33

def GetLen (chHeader : UInt8) : Nat :=
  if chHeader = 2 ∨ chHeader = 3 then COMPRESSED_SIZE
  else if chHeader = 4 ∨ chHeader = 6 ∨ chHeader = 7 then SIZE
  else 0

/-- The key `Invalidate` leaves. -/
def Invalidate : CPubKey := ⟨[0xFF]⟩

/-- `Set(pbegin, pend)`: the bytes, when their first byte announces their length. -/
def Set (bytes : Bytes) : CPubKey :=
  let len := match bytes with
    | [] => 0
    | header :: _ => GetLen header
  if len ≠ 0 ∧ len = bytes.length then ⟨bytes⟩ else Invalidate

def size (key : CPubKey) : Nat := GetLen (key.vch.headD 0xFF)

def IsValid (key : CPubKey) : Bool := key.size > 0

/-- `IsFullyValid`: the encoding is a point of the curve. -/
def IsFullyValid (key : CPubKey) : Bool :=
  key.IsValid && (eckey_pubkey_parse (key.vch.take key.size)).isSome

/-- `Decompress`: the uncompressed encoding of the key's point, or `none` where the source
returns `false` and leaves the key as it was. -/
def Decompress (key : CPubKey) : Option CPubKey :=
  if !key.IsValid then none
  else
    match eckey_pubkey_parse (key.vch.take key.size) with
    | none => none
    | some point => some (Set (eckey_pubkey_serialize_uncompressed point))

theorem Set_of_GetLen {header : UInt8} {body : Bytes} (announced : GetLen header = body.length + 1) :
    Set (header :: body) = ⟨header :: body⟩ := by
  rw [Set, if_pos ⟨by omega, by rw [announced, List.length_cons]⟩]

theorem GetLen_of_compressed {tag : UInt8}
    (isTag : tag = SECP256K1_TAG_PUBKEY_EVEN ∨ tag = SECP256K1_TAG_PUBKEY_ODD) : GetLen tag = COMPRESSED_SIZE := by
  rcases isTag with rfl | rfl <;> rfl

theorem Set_uncompressed {X Y : Bytes} (lengthX : X.length = 32) (lengthY : Y.length = 32) :
    Set (SECP256K1_TAG_PUBKEY_UNCOMPRESSED :: (X ++ Y)) = ⟨SECP256K1_TAG_PUBKEY_UNCOMPRESSED :: (X ++ Y)⟩ :=
  Set_of_GetLen (by simp [GetLen, SIZE, lengthX, lengthY, SECP256K1_TAG_PUBKEY_UNCOMPRESSED])

theorem Decompress_Set_compressed {X Y : Bytes} (lengthX : X.length = 32) (lengthY : Y.length = 32)
    (fullyValid : (Set (SECP256K1_TAG_PUBKEY_UNCOMPRESSED :: (X ++ Y))).IsFullyValid = true) {tag : UInt8}
    (isTag : tag = SECP256K1_TAG_PUBKEY_EVEN ∨ tag = SECP256K1_TAG_PUBKEY_ODD)
    (parity : (tag == SECP256K1_TAG_PUBKEY_ODD) = (valueBE Y % 2 == 1)) :
    (Set (tag :: X)).Decompress = some (Set (SECP256K1_TAG_PUBKEY_UNCOMPRESSED :: (X ++ Y))) := by
  have uncompressed := Set_uncompressed lengthX lengthY
  have uncompressedSize : (⟨SECP256K1_TAG_PUBKEY_UNCOMPRESSED :: (X ++ Y)⟩ : CPubKey).size = 65 := rfl
  rw [uncompressed, IsFullyValid, Bool.and_eq_true, uncompressedSize,
    List.take_of_length_le (by simp [lengthX, lengthY]), Option.isSome_iff_exists] at fullyValid
  obtain ⟨-, point, parsed⟩ := fullyValid
  obtain ⟨rfl, reducedX, reducedY, onCurve⟩ := eckey_pubkey_parse_uncompressed lengthX lengthY parsed
  have compressedSize : (⟨tag :: X⟩ : CPubKey).size = 33 := GetLen_of_compressed isTag
  have valid : (⟨tag :: X⟩ : CPubKey).IsValid = true := by simp [IsValid, compressedSize]
  rw [Set_of_GetLen (by rw [GetLen_of_compressed isTag, lengthX]; rfl), Decompress, valid, Bool.not_true,
    if_neg Bool.false_ne_true, compressedSize, List.take_of_length_le (by simp [lengthX]),
    eckey_pubkey_parse_compressed lengthX isTag parity reducedX reducedY onCurve]
  dsimp only
  rw [eckey_pubkey_serialize_uncompressed_valueBE lengthX lengthY, uncompressed]

end CPubKey

end Elements
