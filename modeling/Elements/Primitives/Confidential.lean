import Elements.Uint256

/-! `primitives/confidential.h`: assets, values and nonces that are either
null, explicit, or a 33-byte commitment, selected by their first byte. -/

namespace Elements

open Wire Wire.Decoder

abbrev CAmount := Int

def COIN : CAmount := 100000000
def MAX_MONEY : CAmount := 21000000 * COIN

def MoneyRange (nValue : CAmount) : Bool := nValue ≥ 0 && nValue ≤ MAX_MONEY

/-- The amounts an `int64_t` holds. -/
def Int64Range (a : CAmount) : Prop := -2 ^ 63 ≤ a ∧ a < 2 ^ 63

instance (a : CAmount) : Decidable (Int64Range a) := inferInstanceAs (Decidable (_ ∧ _))

structure CConfidentialCommitment (ExplicitSize : Nat) (PrefixA PrefixB : UInt8) where
  vchCommitment : Bytes
  deriving DecidableEq

namespace CConfidentialCommitment

variable {E : Nat} {A B : UInt8}

def nCommittedSize : Nat := 33

def IsNull (c : CConfidentialCommitment E A B) : Bool := c.vchCommitment.isEmpty

def IsExplicit (c : CConfidentialCommitment E A B) : Bool :=
  c.vchCommitment.length == E && c.vchCommitment.head? == some 1

def IsCommitment (c : CConfidentialCommitment E A B) : Bool :=
  c.vchCommitment.length == nCommittedSize &&
    (c.vchCommitment.head? == some A || c.vchCommitment.head? == some B)

def IsValid (c : CConfidentialCommitment E A B) : Bool :=
  c.IsNull || c.IsExplicit || c.IsCommitment

def null : CConfidentialCommitment E A B := ⟨[]⟩

def serialize (c : CConfidentialCommitment E A B) : Bytes :=
  let version := if c.vchCommitment.isEmpty then 0 else c.vchCommitment.headD 0
  serWritedata8 version ++ (if c.vchCommitment.length > 1 then c.vchCommitment.tail else [])

def unrecognizedPrefix : String := "Unrecognized serialization prefix"

def unserialize : Decoder (CConfidentialCommitment E A B) := do
  let version ← serReaddata8
  if version = 0 then pure null
  else if version = 1 then do
    let body ← readBytes endOfData (E - 1)
    pure ⟨version :: body⟩
  else if version = A ∨ version = B then do
    let body ← readBytes endOfData (nCommittedSize - 1)
    pure ⟨version :: body⟩
  else fail unrecognizedPrefix

end CConfidentialCommitment

abbrev CConfidentialAsset := CConfidentialCommitment 33 10 11

abbrev CConfidentialValue := CConfidentialCommitment 9 8 9

abbrev CConfidentialNonce := CConfidentialCommitment 33 2 3

/-- The big-endian number written in `bytes`. -/
def valueBE (bytes : Bytes) : Nat := bytes.foldl (fun acc byte => acc * 256 + byte.toNat) 0

/-- `ReadBE64(&vchCommitment[1])`, read as the signed `CAmount` it is stored into. -/
def CConfidentialValue.GetAmount (value : CConfidentialValue) : CAmount :=
  (UInt64.ofNat (valueBE ((value.vchCommitment.drop 1).take 8))).toInt64.toInt

def CConfidentialAsset.GetAsset (asset : CConfidentialAsset) : CAsset :=
  if size : ((asset.vchCommitment.drop 1).take 32).length = 32 then ⟨⟨_, size⟩⟩ else default

structure CAssetIssuance where
  assetBlindingNonce : Uint256
  assetEntropy : Uint256
  nAmount : CConfidentialValue
  nInflationKeys : CConfidentialValue
  deriving DecidableEq

namespace CAssetIssuance

def IsNull (issuance : CAssetIssuance) : Bool :=
  issuance.nAmount.IsNull && issuance.nInflationKeys.IsNull

def serialize (issuance : CAssetIssuance) : Bytes :=
  issuance.assetBlindingNonce.serialize ++ issuance.assetEntropy.serialize ++
    issuance.nAmount.serialize ++ issuance.nInflationKeys.serialize

def unserialize : Decoder CAssetIssuance := do
  let assetBlindingNonce ← Uint256.unserialize
  let assetEntropy ← Uint256.unserialize
  let nAmount ← CConfidentialCommitment.unserialize
  let nInflationKeys ← CConfidentialCommitment.unserialize
  pure ⟨assetBlindingNonce, assetEntropy, nAmount, nInflationKeys⟩

end CAssetIssuance

end Elements
