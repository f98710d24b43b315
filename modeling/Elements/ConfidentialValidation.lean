import Mathlib.Algebra.BigOperators.Group.List.Basic
import Elements.Issuance

/-! `confidential_validation.cpp`: `VerifyAmounts`, which checks that a
non-coinbase transaction's inputs and issuances balance its outputs as
Pedersen commitments, and its range and surjection proofs.

Curve points are an additive group `G`. The secp256k1-zkp calls that parse
and derive points and check proofs are parameters; the two the balance rests
on are stated here as the library documents them: with the all-zero blinding
factor a commitment to `value` is `value • gen`, refused when that is the point
at infinity, and the tally holds when both sides sum to the same point. -/

namespace Elements

open Wire

/-- The secp256k1-zkp functions `VerifyAmounts` calls, other than commitment and tally. -/
structure Secp256k1 (G : Type) where
  generatorGenerate : Uint256 → G
  generatorGenerateBlinded : Uint256 → Uint256 → Option G
  generatorParse : Bytes → Option G
  generatorSerialize : G → Bytes
  pedersenCommitmentParse : Bytes → Option G
  verifyRangeProof : Bytes → Bytes → Bytes → CScript → Bool
  surjectionproofParse : Bytes → Bool
  verifySurjectionProof : Bytes → List G → G → Uint256 → Bool

variable {G : Type} [AddCommGroup G] [DecidableEq G]

/-- `secp256k1_pedersen_commit` with the all-zero blinding factor. -/
def secp256k1PedersenCommit (value : UInt64) (gen : G) : Option G :=
  let commit := value.toNat • gen
  if commit = 0 then none else some commit

def secp256k1PedersenVerifyTally (commits ncommits : List G) : Bool :=
  decide (commits.sum = ncommits.sum)

def OP_RETURN : UInt8 := 0x6a
def MAX_SCRIPT_SIZE : Nat := 10000

/-- `CScript::IsUnspendable` in Elements mode, where an empty script is a fee output. -/
def IsUnspendable (script : CScript) : Bool :=
  (script.length > 0 && script.head? == some OP_RETURN) || script.length > MAX_SCRIPT_SIZE ||
    script.length == 0

/-- The checks `VerifyAmounts` hands to `QueueCheck`. -/
inductive CCheck (G : Type) where
  | range (val : CConfidentialValue) (rangeproof assetCommitment : Bytes) (scriptPubKey : CScript)
  | balance (vData : List G) (vpCommitsIn vpCommitsOut : List Nat)
  | surjection (proof : Bytes) (vTags : List G) (gen : G) (wtxid : Uint256)

def CCheck.run (crypto : Secp256k1 G) : CCheck G → Bool
  | .range val rangeproof assetCommitment scriptPubKey =>
      crypto.verifyRangeProof rangeproof val.vchCommitment assetCommitment scriptPubKey
  | .balance vData vpCommitsIn vpCommitsOut =>
      secp256k1PedersenVerifyTally (vpCommitsIn.map (vData.getD · 0)) (vpCommitsOut.map (vData.getD · 0))
  | .surjection proof vTags gen wtxid => crypto.verifySurjectionProof proof vTags gen wtxid

/-- The locals of `VerifyAmounts`: commitments pushed to `vData`, the pointers
into it (as offsets from `vData.data()`), the surjection targets, the cursor
`p`, and the checks queued when a check queue is passed. -/
structure AmountsState (G : Type) where
  vData : List G
  vpCommitsIn : List Nat
  vpCommitsOut : List Nat
  targetGenerators : List G
  p : Nat
  queued : List (CCheck G)

namespace AmountsState

def initial : AmountsState G := ⟨[], [], [], [], 0, []⟩

def pushIn (commit : G) (st : AmountsState G) : AmountsState G :=
  { st with vData := st.vData ++ [commit], vpCommitsIn := st.vpCommitsIn ++ [st.p], p := st.p + 1 }

def pushOut (commit : G) (st : AmountsState G) : AmountsState G :=
  { st with vData := st.vData ++ [commit], vpCommitsOut := st.vpCommitsOut ++ [st.p], p := st.p + 1 }

def pushGenerator (gen : G) (st : AmountsState G) : AmountsState G :=
  { st with targetGenerators := st.targetGenerators ++ [gen] }

end AmountsState

section Verify

variable (crypto : Secp256k1 G) (H : Hashes) (peggedAsset : CAsset) (useQueue : Bool)

/-- `QueueCheck`: with a queue the check is deferred, without one it runs now. -/
def QueueCheck (check : CCheck G) (st : AmountsState G) : Option (AmountsState G) :=
  if useQueue then some { st with queued := st.queued ++ [check] }
  else if check.run crypto then some st else none

def assetGenerator (asset : CConfidentialAsset) : Option G :=
  if asset.IsExplicit then some (crypto.generatorGenerate asset.GetAsset.id)
  else if asset.IsCommitment then crypto.generatorParse asset.vchCommitment
  else none

/-- `VerifyIssuanceAmount`: the commitment and generator of one issuance pseudo-input. -/
def VerifyIssuanceAmount (asset : CAsset) (value : CConfidentialValue) (rangeproof : Bytes)
    (st : AmountsState G) : Option (G × G × AmountsState G) :=
  let asset_gen := crypto.generatorGenerate asset.id
  if value.IsExplicit then
    if (asset == peggedAsset && !MoneyRange value.GetAmount) || value.GetAmount ≤ 0 then none
    else if !rangeproof.isEmpty then none
    else (secp256k1PedersenCommit (UInt64.ofInt value.GetAmount) asset_gen).map
      fun value_commit => (value_commit, asset_gen, st)
  else if value.IsCommitment then do
    let st ← QueueCheck crypto useQueue
      (.range value rangeproof (crypto.generatorSerialize asset_gen) []) st
    let value_commit ← crypto.pedersenCommitmentParse value.vchCommitment
    pure (value_commit, asset_gen, st)
  else none

def reissuanceTokenMatches (asset : CConfidentialAsset) (assetTokenID : CAsset)
    (assetBlindingNonce : Uint256) : Bool :=
  match crypto.generatorGenerateBlinded assetTokenID.id assetBlindingNonce with
  | none => false
  | some gen =>
      let derived_generator := crypto.generatorSerialize gen
      asset.vchCommitment.length == 33 && asset.vchCommitment == derived_generator

def pushIssuance (tx : CTransaction) (i : Nat) (asset : CAsset) (value : CConfidentialValue)
    (rangeproof : CTxInWitness → Bytes) (st : AmountsState G) : Option (AmountsState G) :=
  if value.IsNull then some st
  else match tx.witness.vtxinwit[i]? with
    | none => none
    | some txinwit => do
        let (commit, gen, st) ← VerifyIssuanceAmount crypto peggedAsset useQueue asset value
          (rangeproof txinwit) st
        pure ((st.pushGenerator gen).pushIn commit)

def verifyIssuance (tx : CTransaction) (i : Nat) (spentAsset : CConfidentialAsset) (txin : CTxIn)
    (st : AmountsState G) : Option (AmountsState G) :=
  let issuance := txin.assetIssuance
  if issuance.IsNull then some st
  else
    let (assetID, assetTokenID) := H.issuanceAssets txin
    if !issuance.assetBlindingNonce.IsNull &&
        !reissuanceTokenMatches crypto spentAsset assetTokenID issuance.assetBlindingNonce then none
    else if !issuance.nAmount.IsValid then none
    else
      (pushIssuance crypto peggedAsset useQueue tx i assetID issuance.nAmount
        CTxInWitness.vchIssuanceAmountRangeproof st).bind fun st =>
      if !issuance.nInflationKeys.IsValid then none
      -- only an initial issuance may create reissuance tokens
      else if !issuance.nInflationKeys.IsNull && !issuance.assetBlindingNonce.IsNull then none
      else pushIssuance crypto peggedAsset useQueue tx i assetTokenID issuance.nInflationKeys
        CTxInWitness.vchInflationKeysRangeproof st

def inputCommitment (val : CConfidentialValue) (gen : G) : Option G :=
  if val.IsExplicit then
    if !MoneyRange val.GetAmount then none
    else secp256k1PedersenCommit (UInt64.ofInt val.GetAmount) gen
  else if val.IsCommitment then crypto.pedersenCommitmentParse val.vchCommitment
  else none

def verifyInput (tx : CTransaction) (i : Nat) (spent : CTxOut) (txin : CTxIn)
    (st : AmountsState G) : Option (AmountsState G) :=
  if spent.nValue.IsNull || spent.nAsset.IsNull then none
  else do
    let gen ← assetGenerator crypto spent.nAsset
    let commit ← inputCommitment crypto spent.nValue gen
    verifyIssuance crypto H peggedAsset useQueue tx i spent.nAsset txin
      ((st.pushGenerator gen).pushIn commit)

def verifyInputs (tx : CTransaction) : Nat → List (CTxOut × CTxIn) → AmountsState G →
    Option (AmountsState G)
  | _, [], st => some st
  | i, (spent, txin) :: rest, st => do
      let st ← verifyInput crypto H peggedAsset useQueue tx i spent txin st
      verifyInputs tx (i + 1) rest st

def verifyOutput (txout : CTxOut) (st : AmountsState G) : Option (AmountsState G) :=
  let val := txout.nValue
  if !txout.nAsset.IsValid || !val.IsValid || !txout.nNonce.IsValid then none
  else do
    let gen ← assetGenerator crypto txout.nAsset
    if val.IsExplicit then
      if !MoneyRange val.GetAmount then none
      else if val.GetAmount = 0 then
        if IsUnspendable txout.scriptPubKey then some st else none
      else do
        let commit ← secp256k1PedersenCommit (UInt64.ofInt val.GetAmount) gen
        pure (st.pushOut commit)
    else if val.IsCommitment then do
      let commit ← crypto.pedersenCommitmentParse val.vchCommitment
      pure (st.pushOut commit)
    else none

def verifyOutputs : List CTxOut → AmountsState G → Option (AmountsState G)
  | [], st => some st
  | txout :: rest, st => do
      let st ← verifyOutput crypto txout st
      verifyOutputs rest st

def verifyRangeProof (txout : CTxOut) (ptxoutwit : Option CTxOutWitness) (st : AmountsState G) :
    Option (AmountsState G) :=
  if txout.nValue.IsExplicit then
    if ptxoutwit.any (!·.vchRangeproof.isEmpty) then none else some st
  else
    let vchAssetCommitment := if txout.nAsset.IsExplicit
      then crypto.generatorSerialize (crypto.generatorGenerate txout.nAsset.GetAsset.id)
      else txout.nAsset.vchCommitment
    match ptxoutwit with
    | none => none
    | some txoutwit => QueueCheck crypto useQueue
        (.range txout.nValue txoutwit.vchRangeproof vchAssetCommitment txout.scriptPubKey) st

def verifyRangeProofs : List (CTxOut × Option CTxOutWitness) → AmountsState G →
    Option (AmountsState G)
  | [], st => some st
  | (txout, ptxoutwit) :: rest, st => do
      let st ← verifyRangeProof crypto useQueue txout ptxoutwit st
      verifyRangeProofs rest st

def verifySurjectionProof (wtxid : Uint256) (txout : CTxOut) (ptxoutwit : Option CTxOutWitness)
    (st : AmountsState G) : Option (AmountsState G) :=
  let asset := txout.nAsset
  if asset.IsExplicit then
    if ptxoutwit.any (!·.vchSurjectionproof.isEmpty) then none else some st
  else match ptxoutwit with
    | none => none
    | some txoutwit =>
        if asset.vchCommitment.length != 33 || txoutwit.vchSurjectionproof.isEmpty then none
        else match crypto.generatorParse asset.vchCommitment with
          | none => none
          | some gen =>
              if !crypto.surjectionproofParse txoutwit.vchSurjectionproof then none
              else QueueCheck crypto useQueue
                (.surjection txoutwit.vchSurjectionproof st.targetGenerators gen wtxid) st

def verifySurjectionProofs (wtxid : Uint256) : List (CTxOut × Option CTxOutWitness) →
    AmountsState G → Option (AmountsState G)
  | [], st => some st
  | (txout, ptxoutwit) :: rest, st => do
      let st ← verifySurjectionProof crypto useQueue wtxid txout ptxoutwit st
      verifySurjectionProofs wtxid rest st

/-- The outputs paired with their witnesses, `NULL` past the end of `vtxoutwit`. -/
def outputsWithWitness (tx : CTransaction) : List (CTxOut × Option CTxOutWitness) :=
  tx.vout.mapIdx fun i txout => (txout, tx.witness.vtxoutwit[i]?)

/-- `VerifyAmounts(inputs, tx, checks, store_result)`: `none` where it returns
false, otherwise the final locals, whose `queued` checks the caller still runs.
Its callers pass a non-coinbase transaction and one spent output per input. -/
def VerifyAmounts (getWitnessHash : CTransaction → Uint256) (inputs : List CTxOut)
    (tx : CTransaction) : Option (AmountsState G) := do
  let wtxid := getWitnessHash tx
  let st ← verifyInputs crypto H peggedAsset useQueue tx 0 (inputs.zip tx.vin) AmountsState.initial
  let st ← verifyOutputs crypto tx.vout st
  let st ← QueueCheck crypto useQueue (.balance st.vData st.vpCommitsIn st.vpCommitsOut) st
  let st ← verifyRangeProofs crypto useQueue (outputsWithWitness tx) st
  verifySurjectionProofs crypto useQueue wtxid (outputsWithWitness tx) st

end Verify

end Elements
