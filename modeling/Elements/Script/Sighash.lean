import Elements.Script.Script

/-! Taproot signature hashing in Elements (`script/interpreter.cpp`): the
single SHA-256 digests `PrecomputedTransactionData::Init` caches, the
features it precomputes for, and `SignatureHashSchnorr`; and the witness-only
hash of `primitives/transaction.cpp`. A `CHashWriter` is the bytes written to
it. Writing a transaction with its witness resizes the witness vectors in
place (the `const_cast` in `SerializeTransaction`), so `Init` returns the
transaction as it leaves it. -/

namespace Elements

open Wire

/-- `CTxOut()`: null commitments and an empty script. -/
instance : Inhabited CTxOut := ⟨⟨.null, .null, .null, []⟩⟩

def WITNESS_V1_TAPROOT_SIZE : Nat := 32

def SIGHASH_DEFAULT : UInt8 := 0
def SIGHASH_ALL : UInt8 := 1
def SIGHASH_NONE : UInt8 := 2
def SIGHASH_SINGLE : UInt8 := 3
def SIGHASH_ANYONECANPAY : UInt8 := 0x80
def SIGHASH_OUTPUT_MASK : UInt8 := 3
def SIGHASH_INPUT_MASK : UInt8 := 0x80

inductive SigVersion
  | BASE
  | WITNESS_V0
  | TAPROOT
  | TAPSCRIPT
  deriving DecidableEq

namespace CMutableTransaction

/-- The transaction as `SerializeTransaction` leaves it: a write that
includes the witness resizes the witness vectors to the input and output
counts. -/
def afterSerialize (allowWitness : Bool) (tx : CMutableTransaction) : CMutableTransaction :=
  if allowWitness && tx.HasWitness then { tx with witness := tx.paddedWitness } else tx

end CMutableTransaction

def GetOutpointFlag (txin : CTxIn) : UInt8 :=
  (if !txin.assetIssuance.IsNull then (COutPoint.OUTPOINT_ISSUANCE_FLAG >>> 24).toUInt8 else 0) |||
    (if txin.isPegin then (COutPoint.OUTPOINT_PEGIN_FLAG >>> 24).toUInt8 else 0)

variable (H : Hashes)

def GetOutpointFlagsSHA256 (txTo : CTransaction) : Uint256 :=
  H.sha256 (txTo.vin.flatMap fun txin => serWritedata8 (GetOutpointFlag txin))

def GetPrevoutsSHA256 (txTo : CTransaction) : Uint256 :=
  H.sha256 (txTo.vin.flatMap fun txin => txin.prevout.serialize)

def GetSequencesSHA256 (txTo : CTransaction) : Uint256 :=
  H.sha256 (txTo.vin.flatMap fun txin => serWritedata32 txin.nSequence)

def GetIssuanceSHA256 (txTo : CTransaction) : Uint256 :=
  H.sha256 (txTo.vin.flatMap fun txin =>
    if txin.assetIssuance.IsNull then serWritedata8 0 else txin.assetIssuance.serialize)

def GetOutputsSHA256 (txTo : CTransaction) : Uint256 :=
  H.sha256 (txTo.vout.flatMap CTxOut.serialize)

def GetOutputWitnessesSHA256 (txTo : CTransaction) : Uint256 :=
  H.sha256 (txTo.witness.vtxoutwit.flatMap CTxOutWitness.serialize)

def GetIssuanceRangeproofsSHA256 (txTo : CTransaction) : Uint256 :=
  H.sha256 (txTo.witness.vtxinwit.flatMap fun inwit =>
    serializeBytes inwit.vchIssuanceAmountRangeproof ++ serializeBytes inwit.vchInflationKeysRangeproof)

def GetSpentAssetsAmountsSHA256 (outputs_spent : List CTxOut) : Uint256 :=
  H.sha256 (outputs_spent.flatMap fun txout => txout.nAsset.serialize ++ txout.nValue.serialize)

def GetSpentScriptsSHA256 (outputs_spent : List CTxOut) : Uint256 :=
  H.sha256 (outputs_spent.flatMap fun txout => serializeBytes txout.scriptPubKey)

def GetRangeproofsHash (txTo : CTransaction) : Uint256 :=
  H.Hash ((List.range txTo.vout.length).flatMap fun i =>
    match txTo.witness.vtxoutwit[i]? with
    | some outwit => serializeBytes outwit.vchRangeproof ++ serializeBytes outwit.vchSurjectionproof
    | none => serWritedata8 0 ++ serWritedata8 0)

def SHA256Uint256 (value : Uint256) : Uint256 := H.sha256 value.serialize

/-- A `CHashWriter` that starts with the SHA-256 of `tag` twice. -/
def TaggedHash (tag : Bytes) : Bytes := (H.sha256 tag).serialize ++ (H.sha256 tag).serialize

def HASHER_TAPSIGHASH_ELEMENTS : Bytes := TaggedHash H "TapSighash/elements".toUTF8.toList

/-- The fields of `PrecomputedTransactionData` that signature hashing reads;
the Simplicity transaction data and the per-script hashes are left out. -/
structure PrecomputedTransactionData where
  m_hash_genesis_block : Uint256
  m_tapsighash_hasher : Bytes
  m_spent_outputs : List CTxOut
  m_spent_outputs_ready : Bool
  m_bip143_segwit_ready : Bool
  m_bip341_taproot_ready : Bool
  m_prevouts_single_hash : Uint256
  m_sequences_single_hash : Uint256
  m_outputs_single_hash : Uint256
  m_issuances_single_hash : Uint256
  hashPrevouts : Uint256
  hashSequence : Uint256
  hashIssuance : Uint256
  hashOutputs : Uint256
  hashRangeproofs : Uint256
  m_tx_weight : Nat
  m_outpoints_flag_single_hash : Uint256
  m_spent_asset_amounts_single_hash : Uint256
  m_issuance_rangeproofs_single_hash : Uint256
  m_output_witnesses_single_hash : Uint256
  m_spent_scripts_single_hash : Uint256

namespace PrecomputedTransactionData

def ofGenesis (hash_genesis_block : Uint256) : PrecomputedTransactionData where
  m_hash_genesis_block := hash_genesis_block
  m_tapsighash_hasher :=
    HASHER_TAPSIGHASH_ELEMENTS H ++ hash_genesis_block.serialize ++ hash_genesis_block.serialize
  m_spent_outputs := []
  m_spent_outputs_ready := false
  m_bip143_segwit_ready := false
  m_bip341_taproot_ready := false
  m_prevouts_single_hash := default
  m_sequences_single_hash := default
  m_outputs_single_hash := default
  m_issuances_single_hash := default
  hashPrevouts := default
  hashSequence := default
  hashIssuance := default
  hashOutputs := default
  hashRangeproofs := default
  m_tx_weight := 0
  m_outpoints_flag_single_hash := default
  m_spent_asset_amounts_single_hash := default
  m_issuance_rangeproofs_single_hash := default
  m_output_witnesses_single_hash := default
  m_spent_scripts_single_hash := default

/-- One input of the scan in `Init`: an input with a script witness spends a
taproot output when the output's script is a 34-byte program starting with
`OP_1`, and counts as a witness v0 spend otherwise. The scan stops once both
are found. -/
def scanInput (txTo : CTransaction) (m_spent_outputs : List CTxOut) (m_spent_outputs_ready : Bool)
    (uses : Bool × Bool) (inpos : Nat) : Bool × Bool :=
  let (uses_bip143_segwit, uses_bip341_taproot) := uses
  if uses_bip143_segwit && uses_bip341_taproot then uses
  else if inpos < txTo.witness.vtxinwit.length &&
      !(txTo.witness.vtxinwit.getD inpos default).scriptWitness.IsNull then
    let scriptPubKey := (m_spent_outputs.getD inpos default).scriptPubKey
    if m_spent_outputs_ready && scriptPubKey.length == 2 + WITNESS_V1_TAPROOT_SIZE &&
        scriptPubKey.getD 0 0 == OP_1 then (uses_bip143_segwit, true)
    else (true, uses_bip341_taproot)
  else uses

/-- The scan over the inputs: whether the transaction needs the witness v0
precomputations and the taproot ones, both set under `force`. -/
def usesFeatures (txTo : CTransaction) (m_spent_outputs : List CTxOut) (m_spent_outputs_ready : Bool)
    (force : Bool) : Bool × Bool :=
  (List.range txTo.vin.length).foldl (scanInput txTo m_spent_outputs m_spent_outputs_ready) (force, force)

def sharedHashes (data : PrecomputedTransactionData) (txTo : CTransaction) : PrecomputedTransactionData :=
  { data with
    m_prevouts_single_hash := GetPrevoutsSHA256 H txTo
    m_sequences_single_hash := GetSequencesSHA256 H txTo
    m_outputs_single_hash := GetOutputsSHA256 H txTo
    m_issuances_single_hash := GetIssuanceSHA256 H txTo }

def bip143Hashes (data : PrecomputedTransactionData) (txTo : CTransaction) : PrecomputedTransactionData :=
  { data with
    hashPrevouts := SHA256Uint256 H data.m_prevouts_single_hash
    hashSequence := SHA256Uint256 H data.m_sequences_single_hash
    hashIssuance := SHA256Uint256 H data.m_issuances_single_hash
    hashOutputs := SHA256Uint256 H data.m_outputs_single_hash
    hashRangeproofs := GetRangeproofsHash H txTo
    m_bip143_segwit_ready := true }

def taprootHashes (data : PrecomputedTransactionData) (txTo : CTransaction) : PrecomputedTransactionData :=
  let m_tx_weight := (SerializeTransaction false txTo).length * (WITNESS_SCALE_FACTOR - 1) +
    (SerializeTransaction true txTo).length
  let txTo := txTo.afterSerialize true
  { data with
    m_tx_weight
    m_outpoints_flag_single_hash := GetOutpointFlagsSHA256 H txTo
    m_spent_asset_amounts_single_hash := GetSpentAssetsAmountsSHA256 H data.m_spent_outputs
    m_issuance_rangeproofs_single_hash := GetIssuanceRangeproofsSHA256 H txTo
    m_output_witnesses_single_hash := GetOutputWitnessesSHA256 H txTo
    m_spent_scripts_single_hash := GetSpentScriptsSHA256 H data.m_spent_outputs
    m_bip341_taproot_ready := true }

/-- `Init(txTo, spent_outputs, force)` on data that has no spent outputs yet
(the source asserts it), with `spent_outputs` empty or one per input: the
data it computes and the transaction as it leaves it. -/
def Init (data : PrecomputedTransactionData) (txTo : CTransaction) (spent_outputs : List CTxOut)
    (force : Bool) : PrecomputedTransactionData × CTransaction :=
  let data := { data with
    m_spent_outputs := spent_outputs
    m_spent_outputs_ready := if !spent_outputs.isEmpty then true else data.m_spent_outputs_ready }
  let (uses_bip143_segwit, uses_bip341_taproot) :=
    usesFeatures txTo data.m_spent_outputs data.m_spent_outputs_ready force
  let data := if uses_bip143_segwit || uses_bip341_taproot then sharedHashes H data txTo else data
  let data := if uses_bip143_segwit then bip143Hashes H data txTo else data
  if uses_bip341_taproot && data.m_spent_outputs_ready then
    (taprootHashes H data txTo, txTo.afterSerialize true)
  else (data, txTo)

end PrecomputedTransactionData

/-- The fields of `ScriptExecutionData` signature hashing reads; those it
asserts to be initialized are. -/
structure ScriptExecutionData where
  m_tapleaf_hash : Uint256
  m_codeseparator_pos : UInt32
  m_annex_present : Bool
  m_annex_hash : Uint256
  m_output_hash : Option Uint256
  m_output_witness_hash : Option Uint256

/-- `SignatureHashSchnorr` under `MissingDataBehavior::FAIL`, for `in_pos`
below the input count (asserted): the digest and the execution data with the
single-output digests it caches; none where the source returns false, and
where it reads a witness vector past its end. -/
def SignatureHashSchnorr (execdata : ScriptExecutionData) (tx_to : CTransaction) (in_pos : UInt32)
    (hash_type : UInt8) (sigversion : SigVersion) (cache : PrecomputedTransactionData) :
    Option (Uint256 × ScriptExecutionData) := do
  let (ext_flag, key_version) : UInt8 × UInt8 ← match sigversion with
    | .TAPROOT => some (0, 0)
    | .TAPSCRIPT => some (1, 0)
    | _ => none
  if !(cache.m_bip341_taproot_ready && cache.m_spent_outputs_ready) then none
  let ss := cache.m_tapsighash_hasher
  let output_type := if hash_type == SIGHASH_DEFAULT then SIGHASH_ALL else hash_type &&& SIGHASH_OUTPUT_MASK
  let input_type := hash_type &&& SIGHASH_INPUT_MASK
  if !(hash_type ≤ 0x03 || (hash_type ≥ 0x81 && hash_type ≤ 0x83)) then none
  let ss := ss ++ serWritedata8 hash_type
  -- transaction level data
  let ss := ss ++ serWritedata32 tx_to.nVersion.toUInt32 ++ serWritedata32 tx_to.nLockTime
  let ss := if input_type != SIGHASH_ANYONECANPAY then
      ss ++ cache.m_outpoints_flag_single_hash.serialize ++ cache.m_prevouts_single_hash.serialize ++
        cache.m_spent_asset_amounts_single_hash.serialize ++
        cache.m_spent_scripts_single_hash.serialize ++ cache.m_sequences_single_hash.serialize ++
        cache.m_issuances_single_hash.serialize ++ cache.m_issuance_rangeproofs_single_hash.serialize
    else ss
  let ss := if output_type == SIGHASH_ALL then
      ss ++ cache.m_outputs_single_hash.serialize ++ cache.m_output_witnesses_single_hash.serialize
    else ss
  -- data about the input being spent
  let have_annex := execdata.m_annex_present
  let spend_type : UInt8 := (ext_flag <<< 1) + (if have_annex then 1 else 0)
  let ss := ss ++ serWritedata8 spend_type
  let ss ← (if input_type == SIGHASH_ANYONECANPAY then do
      let txin ← tx_to.vin[in_pos.toNat]?
      let spent ← cache.m_spent_outputs[in_pos.toNat]?
      let ss := ss ++ serWritedata8 (GetOutpointFlag txin) ++ txin.prevout.serialize ++
        spent.nAsset.serialize ++ spent.nValue.serialize ++ serializeBytes spent.scriptPubKey ++
        serWritedata32 txin.nSequence
      if txin.assetIssuance.IsNull then pure (ss ++ serWritedata8 0)
      else do
        let inwit ← tx_to.witness.vtxinwit[in_pos.toNat]?
        let sha_single_input_issuance_witness :=
          H.sha256 (serializeBytes inwit.vchIssuanceAmountRangeproof ++
            serializeBytes inwit.vchInflationKeysRangeproof)
        pure (ss ++ txin.assetIssuance.serialize ++ sha_single_input_issuance_witness.serialize)
    else pure (ss ++ serWritedata32 in_pos))
  let ss := if have_annex then ss ++ execdata.m_annex_hash.serialize else ss
  -- data about the output, if only one
  let (ss, execdata) ← (if output_type == SIGHASH_SINGLE then do
      let txout ← tx_to.vout[in_pos.toNat]?
      let output_hash := execdata.m_output_hash.getD (H.sha256 txout.serialize)
      let output_witness_hash ← match execdata.m_output_witness_hash with
        | some hash => some hash
        | none => (tx_to.witness.vtxoutwit[in_pos.toNat]?).map fun outwit => H.sha256 outwit.serialize
      let execdata := { execdata with
        m_output_hash := some output_hash, m_output_witness_hash := some output_witness_hash }
      pure (ss ++ output_hash.serialize ++ output_witness_hash.serialize, execdata)
    else pure (ss, execdata))
  -- additional data for BIP 342 signatures
  let ss := if sigversion = .TAPSCRIPT then
      ss ++ execdata.m_tapleaf_hash.serialize ++ serWritedata8 key_version ++
        serWritedata32 execdata.m_codeseparator_pos
    else ss
  pure (H.sha256 ss, execdata)

namespace CTxInWitness

def GetHash (witness : CTxInWitness) : Uint256 := H.SerializeHash witness.serialize

end CTxInWitness

namespace CTxOutWitness

def GetHash (witness : CTxOutWitness) : Uint256 := H.SerializeHash witness.serialize

end CTxOutWitness

/-- `CTransaction::GetWitnessOnlyHash`: the fast merkle roots of the input
and of the output witnesses, a missing witness counting as an empty one, as
does the witness of a coinbase input. -/
def GetWitnessOnlyHash (tx : CTransaction) : Uint256 :=
  let inputLeaves := tx.vin.mapIdx fun i txin =>
    let txinwit := if tx.witness.vtxinwit.length ≤ i || txin.prevout.IsNull then default
      else tx.witness.vtxinwit.getD i default
    txinwit.GetHash H
  let hashIn := H.ComputeFastMerkleRoot inputLeaves
  let outputLeaves := tx.vout.mapIdx fun i _ =>
    let txoutwit := if tx.witness.vtxoutwit.length ≤ i then default
      else tx.witness.vtxoutwit.getD i default
    txoutwit.GetHash H
  let hashOut := H.ComputeFastMerkleRoot outputLeaves
  H.ComputeFastMerkleRoot [hashIn, hashOut]

end Elements
