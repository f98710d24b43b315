import Elements.Primitives.WireFormat
import Elements.Control.Guard

/-! `consensus/tx_check.cpp`: `CheckTransaction`, the checks of a transaction
that need no coins. It bounds every explicit output amount and their running
total by `MAX_MONEY`, but the inputs only by the size of the transaction.

The size is that of the encoding without witness: the Elements one in Elements
mode (`g_con_elementsmode`), Core's otherwise. Outside Elements mode
`GetAmount` asserts that a value is explicit; a transaction read in that mode
has only explicit amounts, and the writer here puts the eight bytes a value's
commitment holds. -/

namespace Elements

open Wire

/-- `CTxOut::IsFee`: an explicit amount of an explicit asset to the empty
script, in Elements mode. -/
def CTxOut.IsFee (g_con_elementsmode : Bool) (txout : CTxOut) : Bool :=
  g_con_elementsmode && txout.scriptPubKey.isEmpty && txout.nValue.IsExplicit && txout.nAsset.IsExplicit

/-- The output loop of `CheckTransaction`, from the explicit total so far. -/
def checkOutputValues : List CTxOut → CAmount → Except String Unit
  | [], _ => pure ()
  | txout :: vout, nValueOutExplicit =>
    if !txout.nValue.IsValid then throw "bad-txns-vout-amount-invalid"
    else if !txout.nValue.IsExplicit then checkOutputValues vout nValueOutExplicit
    else if txout.nValue.GetAmount < 0 then throw "bad-txns-vout-negative"
    else if txout.nValue.GetAmount > MAX_MONEY then throw "bad-txns-vout-toolarge"
    else
      let nValueOutExplicit := nValueOutExplicit + txout.nValue.GetAmount
      if !MoneyRange nValueOutExplicit then throw "bad-txns-txouttotal-toolarge"
      else checkOutputValues vout nValueOutExplicit

/-- `vInOutPoints.insert(txin.prevout).second` for each input in turn, with
the outpoints inserted so far. -/
def checkDuplicateInputs : List COutPoint → List COutPoint → Except String Unit
  | [], _ => pure ()
  | prevout :: prevouts, vInOutPoints =>
    if prevout ∈ vInOutPoints then throw "bad-txns-inputs-duplicate"
    else checkDuplicateInputs prevouts (prevout :: vInOutPoints)

theorem checkDuplicateInputs_eq_ok_iff (prevouts vInOutPoints : List COutPoint) :
    checkDuplicateInputs prevouts vInOutPoints = .ok () ↔
      prevouts.Nodup ∧ ∀ prevout ∈ prevouts, prevout ∉ vInOutPoints := by
  induction prevouts generalizing vInOutPoints with
  | nil => simp [checkDuplicateInputs]
  | cons prevout prevouts ih =>
    rw [checkDuplicateInputs, Guard.ite_throw_eq_ok, ih]
    simp only [List.nodup_cons, List.mem_cons, not_or]
    constructor
    · rintro ⟨fresh, nodup, later⟩
      refine ⟨⟨fun mem => (later prevout mem).1 rfl, nodup⟩, ?_⟩
      rintro other (rfl | mem)
      · exact fresh
      · exact (later other mem).2
    · rintro ⟨⟨unrepeated, nodup⟩, unseen⟩
      exact ⟨unseen prevout (.inl rfl), nodup,
        fun other mem => ⟨fun same => unrepeated (same ▸ mem), unseen other (.inr mem)⟩⟩

/-- `CTxIn::Serialize` outside Elements mode: the outpoint as it is, the script and the sequence;
no issuance. -/
def CTxIn.serializeCompat (txin : CTxIn) : Bytes :=
  txin.prevout.serialize ++ serializeBytes txin.scriptSig ++ serWritedata32 txin.nSequence

/-- `CTxOut::Serialize` outside Elements mode: `nValue.GetAmount()`, which is `-1` for a null
value, then the script. -/
def CTxOut.serializeCompat (txout : CTxOut) : Bytes :=
  serWritedata64 (UInt64.ofInt (if txout.nValue.IsNull then -1 else txout.nValue.GetAmount)) ++
    serializeBytes txout.scriptPubKey

/-- `SerializeTransaction` outside Elements mode without witness: Core's layout, with neither the
dummy input vector nor the flags byte. -/
def serializeTransactionCompat (tx : CTransaction) : Bytes :=
  serWritedata32 tx.nVersion.toUInt32 ++ serializeVector CTxIn.serializeCompat tx.vin ++
    serializeVector CTxOut.serializeCompat tx.vout ++ serWritedata32 tx.nLockTime

def GetSerializeSizeNoWitness (g_con_elementsmode : Bool) (tx : CTransaction) : Nat :=
  if g_con_elementsmode then (SerializeTransaction false tx).length else (serializeTransactionCompat tx).length

def CheckTransaction (g_con_elementsmode : Bool) (tx : CTransaction) : Except String Unit := do
  if tx.vin.isEmpty then throw "bad-txns-vin-empty"
  if tx.vout.isEmpty then throw "bad-txns-vout-empty"
  -- the size without witness, which is not yet checked for malleability
  if GetSerializeSizeNoWitness g_con_elementsmode tx * WITNESS_SCALE_FACTOR > MAX_BLOCK_WEIGHT then
    throw "bad-txns-oversize"
  checkOutputValues tx.vout 0
  checkDuplicateInputs (tx.vin.map (·.prevout)) []
  if tx.IsCoinBase then
    let scriptSig := (tx.vin.head?.map (·.scriptSig)).getD []
    if scriptSig.length < 2 || scriptSig.length > 100 then throw "bad-cb-length"
    if tx.vout.any (·.IsFee g_con_elementsmode) then throw "bad-cb-fee"
  else if tx.vin.any (·.prevout.IsNull) then throw "bad-txns-prevout-null"

theorem CheckTransaction_eq_ok_iff_of_spend (g_con_elementsmode : Bool) (tx : CTransaction)
    (spend : tx.IsCoinBase = false) :
    CheckTransaction g_con_elementsmode tx = .ok () ↔
      tx.vin ≠ [] ∧ tx.vout ≠ [] ∧
      GetSerializeSizeNoWitness g_con_elementsmode tx * WITNESS_SCALE_FACTOR ≤ MAX_BLOCK_WEIGHT ∧
      checkOutputValues tx.vout 0 = .ok () ∧ (tx.vin.map (·.prevout)).Nodup ∧
      ∀ txin ∈ tx.vin, txin.prevout.IsNull = false := by
  unfold CheckTransaction
  simp only [spend, Guard.throw_bind, Guard.bind_eq_ok, Guard.ite_throw_eq_ok, Bool.false_eq_true, ↓reduceIte]
  simp [List.isEmpty_iff, checkDuplicateInputs_eq_ok_iff]

theorem length_SerializeTransaction_false (tx : CTransaction) :
    (SerializeTransaction false tx).length =
      9 + (serializeVector CTxIn.serialize tx.vin).length + (serializeVector CTxOut.serialize tx.vout).length := by
  simp [SerializeTransaction, serWritedata32, serWritedata8]
  omega

theorem CTxIn.length_serialize (txin : CTxIn) (noIssuance : txin.assetIssuance.IsNull = true) :
    txin.serialize.length = 40 + (serializeBytes txin.scriptSig).length := by
  unfold CTxIn.serialize CTxIn.wireOutpoint
  by_cases null : txin.prevout.n = COutPoint.NULL_INDEX <;>
    simp [null, noIssuance, COutPoint.serialize, Uint256.serialize, Uint256.size_data, serWritedata32] <;> omega

theorem length_serializeTransactionCompat (tx : CTransaction) :
    (serializeTransactionCompat tx).length =
      8 + (serializeVector CTxIn.serializeCompat tx.vin).length +
        (serializeVector CTxOut.serializeCompat tx.vout).length := by
  simp [serializeTransactionCompat, serWritedata32]
  omega

theorem CTxIn.length_serializeCompat (txin : CTxIn) :
    txin.serializeCompat.length = 40 + (serializeBytes txin.scriptSig).length := by
  simp [CTxIn.serializeCompat, COutPoint.serialize, Uint256.serialize, Uint256.size_data, serWritedata32]
  omega

end Elements
