import Elements.Primitives.Confidential

/-! `primitives/transaction.h` and `primitives/txwitness.h` in Elements mode
(`g_con_elementsmode` set): outpoints whose index carries the issuance and
peg-in flags, inputs, confidential outputs, the separate witness and the
transaction with its wire format. -/

namespace Elements

open Wire Wire.Decoder

abbrev CScript := Bytes

def MAX_BLOCK_WEIGHT : Nat := 4000000
def WITNESS_SCALE_FACTOR : Nat := 4
def MIN_TRANSACTION_WEIGHT : Nat := WITNESS_SCALE_FACTOR * 60

structure COutPoint where
  hash : Uint256
  n : UInt32
  deriving DecidableEq

namespace COutPoint

def OUTPOINT_ISSUANCE_FLAG : UInt32 := 0x80000000
def OUTPOINT_PEGIN_FLAG : UInt32 := 0x40000000
def OUTPOINT_INDEX_MASK : UInt32 := 0x3fffffff
def NULL_INDEX : UInt32 := 0xffffffff

def IsNull (outpoint : COutPoint) : Bool := outpoint.hash.IsNull && outpoint.n == NULL_INDEX

def serialize (outpoint : COutPoint) : Bytes :=
  outpoint.hash.serialize ++ serWritedata32 outpoint.n

def unserialize : Decoder COutPoint := do
  let hash ← Uint256.unserialize
  let n ← serReaddata32
  pure ⟨hash, n⟩

end COutPoint

namespace CAssetIssuance

/-- What `SetNull` leaves in a default-constructed issuance. -/
def null : CAssetIssuance := ⟨Uint256.zero, Uint256.zero, .null, .null⟩

end CAssetIssuance

/-- A transaction input; `isPegin` is the member `m_is_pegin`. -/
structure CTxIn where
  prevout : COutPoint
  scriptSig : CScript
  nSequence : UInt32
  assetIssuance : CAssetIssuance
  isPegin : Bool
  deriving DecidableEq

namespace CTxIn

def SEQUENCE_FINAL : UInt32 := 0xffffffff

/-- The outpoint as written on the wire: the index carries the issuance and
peg-in flags, except for the coinbase index `0xffffffff`. -/
def wireOutpoint (txin : CTxIn) : Bool × COutPoint :=
  if txin.prevout.n = COutPoint.NULL_INDEX then (false, txin.prevout)
  else
    let fHasAssetIssuance := !txin.assetIssuance.IsNull
    let n := txin.prevout.n &&& COutPoint.OUTPOINT_INDEX_MASK
    let n := if fHasAssetIssuance then n ||| COutPoint.OUTPOINT_ISSUANCE_FLAG else n
    let n := if txin.isPegin then n ||| COutPoint.OUTPOINT_PEGIN_FLAG else n
    (fHasAssetIssuance, ⟨txin.prevout.hash, n⟩)

def serialize (txin : CTxIn) : Bytes :=
  let (fHasAssetIssuance, outpoint) := txin.wireOutpoint
  outpoint.serialize ++ serializeBytes txin.scriptSig ++ serWritedata32 txin.nSequence ++
    (if fHasAssetIssuance then txin.assetIssuance.serialize else [])

/-- The assertion of `Serialize` on an input that is not a coinbase: no flag bit in its index,
`assert(!(prevout.n & ~COutPoint::OUTPOINT_INDEX_MASK))`. -/
def serializeAsserts (txin : CTxIn) : Bool :=
  txin.prevout.n == COutPoint.NULL_INDEX || txin.prevout.n &&& ~~~COutPoint.OUTPOINT_INDEX_MASK == 0

def superfluousIssuance : String := "Superfluous issuance record"

def readOutpoint (outpoint : COutPoint) : Bool × COutPoint × Bool :=
  if outpoint.n = COutPoint.NULL_INDEX then (false, outpoint, false)
  else ((outpoint.n &&& COutPoint.OUTPOINT_ISSUANCE_FLAG) != 0,
    ⟨outpoint.hash, outpoint.n &&& COutPoint.OUTPOINT_INDEX_MASK⟩,
    (outpoint.n &&& COutPoint.OUTPOINT_PEGIN_FLAG) != 0)

/-- Reads into a default-constructed input, whose issuance is `CAssetIssuance.null`. -/
def unserialize : Decoder CTxIn := do
  let outpoint ← COutPoint.unserialize
  let (fHasAssetIssuance, prevout, isPegin) := readOutpoint outpoint
  let scriptSig ← unserializeBytes
  let nSequence ← serReaddata32
  if fHasAssetIssuance then do
    let assetIssuance ← CAssetIssuance.unserialize
    if assetIssuance.IsNull then fail superfluousIssuance
    else pure ⟨prevout, scriptSig, nSequence, assetIssuance, isPegin⟩
  else pure ⟨prevout, scriptSig, nSequence, CAssetIssuance.null, isPegin⟩

end CTxIn

structure CTxOut where
  nAsset : CConfidentialAsset
  nValue : CConfidentialValue
  nNonce : CConfidentialNonce
  scriptPubKey : CScript
  deriving DecidableEq

namespace CTxOut

def serialize (txout : CTxOut) : Bytes :=
  txout.nAsset.serialize ++ txout.nValue.serialize ++ txout.nNonce.serialize ++
    serializeBytes txout.scriptPubKey

def nullConfidential : String := "Confidential values may not be null"

def unserialize : Decoder CTxOut := do
  let nAsset ← CConfidentialCommitment.unserialize
  let nValue ← CConfidentialCommitment.unserialize
  let nNonce ← CConfidentialCommitment.unserialize
  if nAsset.IsNull || nValue.IsNull then fail nullConfidential
  else do
    let scriptPubKey ← unserializeBytes
    pure ⟨nAsset, nValue, nNonce, scriptPubKey⟩

end CTxOut

structure CScriptWitness where
  stack : List Bytes
  deriving DecidableEq

def CScriptWitness.IsNull (witness : CScriptWitness) : Bool := witness.stack.isEmpty

/-- An input witness; `peginWitness` is the member `m_pegin_witness`. -/
structure CTxInWitness where
  vchIssuanceAmountRangeproof : Bytes
  vchInflationKeysRangeproof : Bytes
  scriptWitness : CScriptWitness
  peginWitness : CScriptWitness
  deriving DecidableEq

structure CTxOutWitness where
  vchSurjectionproof : Bytes
  vchRangeproof : Bytes
  deriving DecidableEq

namespace CTxInWitness

def empty : CTxInWitness := ⟨[], [], ⟨[]⟩, ⟨[]⟩⟩

instance : Inhabited CTxInWitness := ⟨empty⟩

def IsNull (witness : CTxInWitness) : Bool :=
  witness.vchIssuanceAmountRangeproof.isEmpty && witness.vchInflationKeysRangeproof.isEmpty &&
    witness.scriptWitness.IsNull && witness.peginWitness.IsNull

def serialize (witness : CTxInWitness) : Bytes :=
  serializeBytes witness.vchIssuanceAmountRangeproof ++
    serializeBytes witness.vchInflationKeysRangeproof ++
    serializeVector serializeBytes witness.scriptWitness.stack ++
    serializeVector serializeBytes witness.peginWitness.stack

def unserialize : Decoder CTxInWitness := do
  let vchIssuanceAmountRangeproof ← unserializeBytes
  let vchInflationKeysRangeproof ← unserializeBytes
  let scriptWitness ← unserializeVector unserializeBytes
  let peginWitness ← unserializeVector unserializeBytes
  pure ⟨vchIssuanceAmountRangeproof, vchInflationKeysRangeproof, ⟨scriptWitness⟩, ⟨peginWitness⟩⟩

end CTxInWitness

namespace CTxOutWitness

def empty : CTxOutWitness := ⟨[], []⟩

instance : Inhabited CTxOutWitness := ⟨empty⟩

def IsNull (witness : CTxOutWitness) : Bool :=
  witness.vchSurjectionproof.isEmpty && witness.vchRangeproof.isEmpty

def serialize (witness : CTxOutWitness) : Bytes :=
  serializeBytes witness.vchSurjectionproof ++ serializeBytes witness.vchRangeproof

def unserialize : Decoder CTxOutWitness := do
  let vchSurjectionproof ← unserializeBytes
  let vchRangeproof ← unserializeBytes
  pure ⟨vchSurjectionproof, vchRangeproof⟩

end CTxOutWitness

/-- `std::vector::resize`: cut to `count` entries or fill up with defaults. -/
def resize {α : Type} [Inhabited α] (entries : List α) (count : Nat) : List α :=
  entries.take count ++ List.replicate (count - entries.length) default

structure CTxWitness where
  vtxinwit : List CTxInWitness
  vtxoutwit : List CTxOutWitness
  deriving DecidableEq

namespace CTxWitness

def empty : CTxWitness := ⟨[], []⟩

def IsNull (witness : CTxWitness) : Bool :=
  witness.vtxinwit.all CTxInWitness.IsNull && witness.vtxoutwit.all CTxOutWitness.IsNull

def superfluousWitness : String := "Superfluous witness record"

def serialize (witness : CTxWitness) : Bytes :=
  witness.vtxinwit.flatMap CTxInWitness.serialize ++ witness.vtxoutwit.flatMap CTxOutWitness.serialize

def unserialize (inputs outputs : Nat) : Decoder CTxWitness := do
  let vtxinwit ← readList CTxInWitness.unserialize inputs
  let vtxoutwit ← readList CTxOutWitness.unserialize outputs
  let witness : CTxWitness := ⟨vtxinwit, vtxoutwit⟩
  if witness.IsNull then fail superfluousWitness else pure witness

end CTxWitness

structure CMutableTransaction where
  vin : List CTxIn
  vout : List CTxOut
  nVersion : Int32
  nLockTime : UInt32
  witness : CTxWitness
  deriving DecidableEq

abbrev CTransaction := CMutableTransaction

namespace CMutableTransaction

def HasWitness (tx : CMutableTransaction) : Bool := !tx.witness.IsNull

def IsCoinBase (tx : CMutableTransaction) : Bool :=
  tx.vin.length == 1 && tx.vin.head?.any (·.prevout.IsNull)

/-- The witness as `SerializeTransaction` leaves it behind when it writes
one: resized to the input and output counts. -/
def paddedWitness (tx : CMutableTransaction) : CTxWitness :=
  ⟨resize tx.witness.vtxinwit tx.vin.length, resize tx.witness.vtxoutwit tx.vout.length⟩

end CMutableTransaction

open CMutableTransaction

/-- `SerializeTransaction` in Elements mode, on a transaction that passes its assertions (see
`SerializeTransactionChecked`); `allowWitness` is false under `SERIALIZE_TRANSACTION_NO_WITNESS`.
Past the assertions the `resize` of the witness only pads it. -/
def SerializeTransaction (allowWitness : Bool) (tx : CMutableTransaction) : Bytes :=
  let flags : UInt8 := if allowWitness && tx.HasWitness then 1 else 0
  serWritedata32 tx.nVersion.toUInt32 ++ serWritedata8 flags ++
    serializeVector CTxIn.serialize tx.vin ++ serializeVector CTxOut.serialize tx.vout ++
    serWritedata32 tx.nLockTime ++
    (if flags &&& 1 ≠ 0 then tx.paddedWitness.serialize else [])

/-- The assertions `SerializeTransaction` makes: the witness vectors no longer than the inputs and
the outputs, then `CTxIn::Serialize`'s on every input. -/
def SerializeTransactionAsserts (tx : CMutableTransaction) : Bool :=
  decide (tx.witness.vtxinwit.length ≤ tx.vin.length) && decide (tx.witness.vtxoutwit.length ≤ tx.vout.length) &&
    tx.vin.all CTxIn.serializeAsserts

/-- `SerializeTransaction` with its assertions: `none` is the abort. -/
def SerializeTransactionChecked (allowWitness : Bool) (tx : CMutableTransaction) : Option Bytes :=
  if SerializeTransactionAsserts tx then some (SerializeTransaction allowWitness tx) else none

def unknownOptionalData : String := "Unknown transaction optional data"

def UnserializeTransaction : Decoder CMutableTransaction := do
  let nVersion ← serReaddata32
  let flags ← serReaddata8
  let vin ← unserializeVector CTxIn.unserialize
  let vout ← unserializeVector CTxOut.unserialize
  let nLockTime ← serReaddata32
  let tx : CMutableTransaction := ⟨vin, vout, nVersion.toInt32, nLockTime, CTxWitness.empty⟩
  let (flags, tx) ← if flags &&& 1 ≠ 0 then do
      let witness ← CTxWitness.unserialize vin.length vout.length
      let tx := { tx with witness }
      if !tx.HasWitness then fail CTxWitness.superfluousWitness else pure (flags ^^^ 1, tx)
    else pure (flags, tx)
  if flags ≠ 0 then fail unknownOptionalData else pure tx

end Elements
