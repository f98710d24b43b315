import Elements.Crypto.Hash
import Elements.Primitives.Transaction

/-! `issuance.cpp`: how many issuance pseudo-inputs a transaction has, and
the asset identifiers an issuance derives from its entropy. -/

namespace Elements

def GetNumIssuances (tx : CTransaction) : Nat :=
  tx.vin.foldl (fun num_issuances txin =>
    if !txin.assetIssuance.IsNull then
      num_issuances + (if !txin.assetIssuance.nAmount.IsNull then 1 else 0) +
        (if !txin.assetIssuance.nInflationKeys.IsNull then 1 else 0)
    else num_issuances) 0

namespace Hashes

variable (H : Hashes)

/-- The `uint256` with the given least significant byte, as `uint256S("0x..0n")`. -/
def smallUint256 (n : UInt8) : Uint256 := ⟨n :: List.replicate 31 0, by simp⟩

/-- `E = H( H(I) || H(C) )` over the outpoint `I` and the contract hash `C`. -/
def GenerateAssetEntropy (prevout : COutPoint) (contracthash : Uint256) : Uint256 :=
  H.ComputeFastMerkleRoot [H.SerializeHash prevout.serialize, contracthash]

def CalculateAsset (entropy : Uint256) : CAsset :=
  ⟨H.ComputeFastMerkleRoot [entropy, smallUint256 0]⟩

def CalculateReissuanceToken (entropy : Uint256) (fConfidential : Bool) : CAsset :=
  ⟨H.ComputeFastMerkleRoot [entropy, if fConfidential then smallUint256 2 else smallUint256 1]⟩

/-- The asset and reissuance-token identifiers `VerifyAmounts` derives for an
input's issuance: from fresh entropy for a new issuance, from the stored
entropy for a reissuance. -/
def issuanceAssets (txin : CTxIn) : CAsset × CAsset :=
  let issuance := txin.assetIssuance
  if issuance.assetBlindingNonce.IsNull then
    let entropy := H.GenerateAssetEntropy txin.prevout issuance.assetEntropy
    (H.CalculateAsset entropy, H.CalculateReissuanceToken entropy issuance.nAmount.IsCommitment)
  else
    (H.CalculateAsset issuance.assetEntropy,
      H.CalculateReissuanceToken issuance.assetEntropy issuance.nAmount.IsCommitment)

end Hashes

end Elements
