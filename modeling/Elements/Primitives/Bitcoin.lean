import Elements.Primitives.WireFormat
import Elements.Crypto.Hash

/-! `primitives/bitcoin/transaction.h` and `primitives/bitcoin/block.h`: the
parent chain's transactions and headers in Bitcoin's own format, which a
peg-in carries when `ParentChainHasPow()`.

A Bitcoin transaction keeps its witness in its inputs and marks it on the
wire by an empty input vector followed by a flag byte; without a witness the
inputs follow the version directly, so a transaction without inputs is read
back as the marker. -/

namespace Elements

open Wire Wire.Decoder

/-- `Serialize(Stream&, int64_t)`: the amount's two's complement, little endian. -/
def serializeInt64 (a : CAmount) : Bytes := serWritedata64 (UInt64.ofInt a)

def unserializeInt64 : Decoder CAmount := (fun a => a.toInt64.toInt) <$> serReaddata64

theorem unserializeInt64_roundTrip (a : CAmount) (range : Int64Range a) :
    RoundTrip serializeInt64 unserializeInt64 a := by
  intro rest
  have signed : (UInt64.ofInt a).toInt64 = Int64.ofInt a := by
    apply Int64.toBitVec_inj.mp
    simp only [UInt64.toBitVec_toInt64, Int64.toBitVec_ofInt]
    apply BitVec.eq_of_toNat_eq
    simp [UInt64.ofInt, BitVec.toNat_ofInt]
    omega
  rw [unserializeInt64, serializeInt64, map_apply, serReaddata64_roundTrip]
  simp only [signed, Int64.toInt_ofInt_of_le range.1 range.2]

namespace Sidechain.Bitcoin

/-- `Sidechain::Bitcoin::COutPoint` has the fields and the encoding of the
sidechain's own outpoint. -/
abbrev COutPoint := Elements.COutPoint

/-- An input; its `scriptWitness` is written only by the transaction. -/
structure CTxIn where
  prevout : COutPoint
  scriptSig : CScript
  nSequence : UInt32
  scriptWitness : CScriptWitness
  deriving DecidableEq

namespace CTxIn

def serialize (txin : CTxIn) : Bytes :=
  txin.prevout.serialize ++ serializeBytes txin.scriptSig ++ serWritedata32 txin.nSequence

def unserialize : Decoder CTxIn := do
  let prevout ← COutPoint.unserialize
  let scriptSig ← unserializeBytes
  let nSequence ← serReaddata32
  pure ⟨prevout, scriptSig, nSequence, ⟨[]⟩⟩

def withoutWitness (txin : CTxIn) : CTxIn := { txin with scriptWitness := ⟨[]⟩ }

theorem serialize_withoutWitness (txin : CTxIn) : txin.withoutWitness.serialize = txin.serialize := rfl

theorem unserialize_roundTrip (txin : CTxIn) (fits : Fits txin.scriptSig) :
    RoundTrip serialize unserialize txin.withoutWitness := by
  intro rest
  simp only [serialize, unserialize, withoutWitness, List.append_assoc]
  rw [bind_of_ok (COutPoint.unserialize_roundTrip _ _), bind_of_ok (unserializeBytes_roundTrip _ fits _),
    bind_of_ok (serReaddata32_roundTrip _ _)]
  rfl

end CTxIn

structure CTxOut where
  nValue : CAmount
  scriptPubKey : CScript
  deriving DecidableEq

namespace CTxOut

def serialize (txout : CTxOut) : Bytes := serializeInt64 txout.nValue ++ serializeBytes txout.scriptPubKey

def unserialize : Decoder CTxOut := do
  let nValue ← unserializeInt64
  let scriptPubKey ← unserializeBytes
  pure ⟨nValue, scriptPubKey⟩

structure Encodable (txout : CTxOut) : Prop where
  nValue : Int64Range txout.nValue
  scriptPubKey : Fits txout.scriptPubKey

theorem unserialize_roundTrip (txout : CTxOut) (encodable : txout.Encodable) :
    RoundTrip serialize unserialize txout := by
  intro rest
  rw [serialize, unserialize, List.append_assoc,
    bind_of_ok (unserializeInt64_roundTrip _ encodable.nValue _),
    bind_of_ok (unserializeBytes_roundTrip _ encodable.scriptPubKey _)]
  rfl

end CTxOut

structure CMutableTransaction where
  vin : List CTxIn
  vout : List CTxOut
  nVersion : Int32
  nLockTime : UInt32
  deriving DecidableEq

namespace CMutableTransaction

def HasWitness (tx : CMutableTransaction) : Bool := tx.vin.any fun txin => !txin.scriptWitness.IsNull

def withoutWitness (tx : CMutableTransaction) : CMutableTransaction :=
  { tx with vin := tx.vin.map CTxIn.withoutWitness }

structure Encodable (tx : CMutableTransaction) : Prop where
  vin : Fits tx.vin
  vout : Fits tx.vout
  scriptSigs : ∀ txin ∈ tx.vin, Fits txin.scriptSig
  outputs : ∀ txout ∈ tx.vout, txout.Encodable

end CMutableTransaction

/-- `SerializeTransaction`; `fAllowWitness` is false under
`SERIALIZE_TRANSACTION_NO_WITNESS`. With a witness, an empty input vector and
the flag byte come first. -/
def SerializeTransaction (fAllowWitness : Bool) (tx : CMutableTransaction) : Bytes :=
  let flags : UInt8 := if fAllowWitness && tx.HasWitness then 1 else 0
  serWritedata32 tx.nVersion.toUInt32 ++
    (if flags ≠ 0 then serializeVector CTxIn.serialize [] ++ serWritedata8 flags else []) ++
    serializeVector CTxIn.serialize tx.vin ++ serializeVector CTxOut.serialize tx.vout ++
    (if flags &&& 1 ≠ 0 then
      tx.vin.flatMap fun txin => serializeVector serializeBytes txin.scriptWitness.stack
    else []) ++
    serWritedata32 tx.nLockTime

/-- `s >> tx.vin[i].scriptWitness.stack` for every input in turn. -/
def readScriptWitnesses : List CTxIn → Decoder (List CTxIn)
  | [] => pure []
  | txin :: vin => do
    let stack ← unserializeVector unserializeBytes
    let vin ← readScriptWitnesses vin
    pure ({ txin with scriptWitness := ⟨stack⟩ } :: vin)

def UnserializeTransaction (fAllowWitness : Bool) : Decoder CMutableTransaction := do
  let nVersion ← serReaddata32
  -- the marker of a witness is read as an empty input vector
  let vin ← unserializeVector CTxIn.unserialize
  let (flags, vin, vout) ← if vin.isEmpty && fAllowWitness then do
      let flags ← serReaddata8
      if flags ≠ 0 then do
        let vin ← unserializeVector CTxIn.unserialize
        let vout ← unserializeVector CTxOut.unserialize
        pure (flags, vin, vout)
      else pure (flags, vin, [])
    else do
      let vout ← unserializeVector CTxOut.unserialize
      pure ((0 : UInt8), vin, vout)
  let (flags, vin) ← if flags &&& 1 ≠ 0 && fAllowWitness then do
      let vin ← readScriptWitnesses vin
      if !(vin.any fun txin => !txin.scriptWitness.IsNull) then fail CTxWitness.superfluousWitness
      else pure (flags ^^^ 1, vin)
    else pure (flags, vin)
  if flags ≠ 0 then fail unknownOptionalData
  else do
    let nLockTime ← serReaddata32
    pure ⟨vin, vout, nVersion.toInt32, nLockTime⟩

/-- `CTransaction::GetHash`: the hash of the encoding without witnesses. -/
def CMutableTransaction.GetHash (H : Hashes) (tx : CMutableTransaction) : Uint256 :=
  H.SerializeHash (SerializeTransaction false tx)

theorem serializeVector_withoutWitness (vin : List CTxIn) :
    serializeVector CTxIn.serialize (vin.map CTxIn.withoutWitness) = serializeVector CTxIn.serialize vin := by
  simp only [serializeVector, writeLength, List.length_map, List.flatMap_map, CTxIn.serialize_withoutWitness]

theorem SerializeTransaction_false (tx : CMutableTransaction) :
    SerializeTransaction false tx =
      serWritedata32 tx.nVersion.toUInt32 ++ serializeVector CTxIn.serialize tx.vin ++
        serializeVector CTxOut.serialize tx.vout ++ serWritedata32 tx.nLockTime := by
  have noFlags : ((if (false && tx.HasWitness) = true then 1 else 0 : UInt8) ≠ 0) = False := by simp
  have noWitness : ((if (false && tx.HasWitness) = true then 1 else 0 : UInt8) &&& 1 ≠ 0) = False := by
    simp
  rw [SerializeTransaction]
  simp only [noFlags, noWitness, if_false, List.append_nil]

theorem SerializeTransaction_withoutWitness (tx : CMutableTransaction) :
    SerializeTransaction false tx.withoutWitness = SerializeTransaction false tx := by
  rw [SerializeTransaction_false, SerializeTransaction_false, CMutableTransaction.withoutWitness,
    serializeVector_withoutWitness]

theorem GetHash_withoutWitness (H : Hashes) (tx : CMutableTransaction) :
    tx.withoutWitness.GetHash H = tx.GetHash H := by
  rw [CMutableTransaction.GetHash, CMutableTransaction.GetHash, SerializeTransaction_withoutWitness]

theorem UnserializeTransaction_SerializeTransaction_noWitness (fAllowWitness : Bool)
    (tx : CMutableTransaction) (encodable : tx.Encodable) (inputs : tx.vin ≠ []) (rest : Bytes) :
    UnserializeTransaction fAllowWitness (SerializeTransaction false tx ++ rest) =
      .ok (tx.withoutWitness, rest) := by
  have vin : Fits (tx.vin.map CTxIn.withoutWitness) := by
    rw [Fits, List.length_map]
    exact encodable.vin
  have readVin : ∀ rest, unserializeVector CTxIn.unserialize (serializeVector CTxIn.serialize tx.vin ++ rest) =
      .ok (tx.vin.map CTxIn.withoutWitness, rest) := by
    intro rest
    rw [← serializeVector_withoutWitness]
    refine unserializeVector_roundTrip CTxIn.serialize CTxIn.unserialize _ vin (fun txin member => ?_) rest
    obtain ⟨original, kept, rfl⟩ := List.mem_map.mp member
    exact CTxIn.unserialize_roundTrip original (encodable.scriptSigs original kept)
  have readVout := unserializeVector_roundTrip CTxOut.serialize CTxOut.unserialize _ encodable.vout
    fun txout member => CTxOut.unserialize_roundTrip txout (encodable.outputs txout member)
  have nonempty : (tx.vin.map CTxIn.withoutWitness).isEmpty = false := by
    simpa using inputs
  rw [SerializeTransaction_false, UnserializeTransaction]
  simp only [List.append_assoc]
  rw [bind_of_ok (serReaddata32_roundTrip _ _), bind_of_ok (readVin _)]
  simp only [nonempty, Bool.false_and, Bool.false_eq_true, if_false]
  rw [bind_of_ok (readVout _), bind_of_ok (pure_apply _ _)]
  -- no flag byte was read, so no witness is read and no optional data is left
  simp only [UInt8.zero_and, ne_eq, not_true_eq_false, decide_false, Bool.false_and,
    Bool.false_eq_true, if_false]
  rw [bind_of_ok (pure_apply _ _)]
  simp only [not_true_eq_false, if_false]
  rw [bind_of_ok (serReaddata32_roundTrip _ _), Int32.toInt32_toUInt32]
  rfl

structure CBlockHeader where
  nVersion : Int32
  hashPrevBlock : Uint256
  hashMerkleRoot : Uint256
  nTime : UInt32
  nBits : UInt32
  nNonce : UInt32
  deriving DecidableEq

namespace CBlockHeader

def serialize (header : CBlockHeader) : Bytes :=
  serWritedata32 header.nVersion.toUInt32 ++ header.hashPrevBlock.serialize ++
    header.hashMerkleRoot.serialize ++ serWritedata32 header.nTime ++ serWritedata32 header.nBits ++
    serWritedata32 header.nNonce

def unserialize : Decoder CBlockHeader := do
  let nVersion ← serReaddata32
  let hashPrevBlock ← Uint256.unserialize
  let hashMerkleRoot ← Uint256.unserialize
  let nTime ← serReaddata32
  let nBits ← serReaddata32
  let nNonce ← serReaddata32
  pure ⟨nVersion.toInt32, hashPrevBlock, hashMerkleRoot, nTime, nBits, nNonce⟩

def GetHash (H : Hashes) (header : CBlockHeader) : Uint256 := H.SerializeHash header.serialize

theorem unserialize_roundTrip (header : CBlockHeader) : RoundTrip serialize unserialize header := by
  intro rest
  simp only [serialize, unserialize, List.append_assoc]
  rw [bind_of_ok (serReaddata32_roundTrip _ _), bind_of_ok (Uint256.unserialize_roundTrip _ _),
    bind_of_ok (Uint256.unserialize_roundTrip _ _), bind_of_ok (serReaddata32_roundTrip _ _),
    bind_of_ok (serReaddata32_roundTrip _ _), bind_of_ok (serReaddata32_roundTrip _ _),
    Int32.toInt32_toUInt32]
  rfl

end CBlockHeader

end Sidechain.Bitcoin

end Elements
