import Elements.Script.Sighash
import Elements.Primitives.WireFormat

/-! The taproot signature hash against padding of the witness vectors. The
only padding on the way to the hash is a side effect: `Init` writes the
transaction with its witness to size it, which resizes the witness vectors,
when the transaction has a witness and the taproot data is computed. Then
the padded and the unpadded transaction hash alike. Under `force`, a
transaction without a witness gets the taproot data too, and its digests of
the output witnesses and of the issuance range proofs are taken over the
vectors as they are. -/

namespace Elements

open Wire

namespace CMutableTransaction

def padWitness (tx : CMutableTransaction) : CMutableTransaction :=
  { tx with witness := tx.paddedWitness }

/-- Witness vectors no longer than the inputs and outputs, as
`SerializeTransaction` asserts. -/
structure WitnessFits (tx : CMutableTransaction) : Prop where
  inputs : tx.witness.vtxinwit.length ≤ tx.vin.length
  outputs : tx.witness.vtxoutwit.length ≤ tx.vout.length

variable {tx : CMutableTransaction}

@[simp] theorem vin_padWitness : tx.padWitness.vin = tx.vin := rfl

@[simp] theorem vout_padWitness : tx.padWitness.vout = tx.vout := rfl

@[simp] theorem nVersion_padWitness : tx.padWitness.nVersion = tx.nVersion := rfl

@[simp] theorem nLockTime_padWitness : tx.padWitness.nLockTime = tx.nLockTime := rfl

theorem vtxinwit_padWitness :
    tx.padWitness.witness.vtxinwit = resize tx.witness.vtxinwit tx.vin.length := rfl

theorem vtxoutwit_padWitness :
    tx.padWitness.witness.vtxoutwit = resize tx.witness.vtxoutwit tx.vout.length := rfl

theorem HasWitness_padWitness (fits : tx.WitnessFits) : tx.padWitness.HasWitness = tx.HasWitness := by
  simp only [HasWitness, padWitness, paddedWitness, CTxWitness.IsNull,
    all_resize _ (by decide : CTxInWitness.IsNull default = true) fits.inputs,
    all_resize _ (by decide : CTxOutWitness.IsNull default = true) fits.outputs]

theorem paddedWitness_padWitness (fits : tx.WitnessFits) :
    tx.padWitness.paddedWitness = tx.paddedWitness := by
  simp only [paddedWitness, padWitness, resize_resize fits.inputs, resize_resize fits.outputs]

theorem SerializeTransaction_padWitness (fits : tx.WitnessFits) (allowWitness : Bool) :
    SerializeTransaction allowWitness tx.padWitness = SerializeTransaction allowWitness tx := by
  simp only [SerializeTransaction, HasWitness_padWitness fits, paddedWitness_padWitness fits,
    vin_padWitness, vout_padWitness, nVersion_padWitness, nLockTime_padWitness]

theorem padWitness_padWitness (fits : tx.WitnessFits) : tx.padWitness.padWitness = tx.padWitness := by
  rw [padWitness, paddedWitness_padWitness fits]
  rfl

theorem afterSerialize_of_HasWitness (has : tx.HasWitness = true) :
    tx.afterSerialize true = tx.padWitness := by
  simp [afterSerialize, has, padWitness]

theorem afterSerialize_of_not_HasWitness (has : tx.HasWitness = false) (allowWitness : Bool) :
    tx.afterSerialize allowWitness = tx := by
  simp [afterSerialize, has]

end CMutableTransaction

open CMutableTransaction

section Padding

variable {α : Type} [Inhabited α] {entries : List α} {count : Nat}

theorem getD_resize_test (fits : entries.length ≤ count) (test : α → Bool) (fails : test default = false)
    (i : Nat) :
    (decide (i < (resize entries count).length) && test ((resize entries count).getD i default)) =
      (decide (i < entries.length) && test (entries.getD i default)) := by
  rw [getD_resize fits, length_resize fits]
  by_cases kept : i < entries.length
  · simp [kept, show i < count by omega]
  · rw [List.getD_eq_default _ _ (by omega), fails]
    simp

theorem ite_getD_resize (fits : entries.length ≤ count) (i : Nat) :
    (if (resize entries count).length ≤ i then default else (resize entries count).getD i default) =
      (if entries.length ≤ i then default else entries.getD i default) := by
  rw [getD_resize fits, length_resize fits]
  by_cases kept : i < entries.length
  · rw [if_neg (by omega), if_neg (by omega)]
  · rw [List.getD_eq_default _ _ (by omega)]
    split_ifs <;> rfl

theorem ite_or_getD_resize (fits : entries.length ≤ count) (skip : Bool) (i : Nat) :
    (if (resize entries count).length ≤ i || skip then default else (resize entries count).getD i default) =
      (if entries.length ≤ i || skip then default else entries.getD i default) := by
  cases skip
  · simpa using ite_getD_resize fits i
  · simp

end Padding

variable (H : Hashes) {tx : CMutableTransaction}

namespace PrecomputedTransactionData

theorem scanInput_padWitness (fits : tx.WitnessFits) :
    scanInput tx.padWitness = scanInput tx := by
  funext m_spent_outputs m_spent_outputs_ready uses inpos
  simp only [scanInput]
  rw [vtxinwit_padWitness]
  simp only [getD_resize_test fits.inputs (fun txinwit => !txinwit.scriptWitness.IsNull) rfl inpos]

theorem usesFeatures_padWitness (fits : tx.WitnessFits) (m_spent_outputs : List CTxOut)
    (m_spent_outputs_ready force : Bool) :
    usesFeatures tx.padWitness m_spent_outputs m_spent_outputs_ready force =
      usesFeatures tx m_spent_outputs m_spent_outputs_ready force := by
  simp only [usesFeatures, vin_padWitness, scanInput_padWitness fits]

theorem foldl_scanInput_of_both (m_spent_outputs : List CTxOut) (m_spent_outputs_ready : Bool)
    (indices : List Nat) :
    indices.foldl (scanInput tx m_spent_outputs m_spent_outputs_ready) (true, true) = (true, true) := by
  induction indices with
  | nil => rfl
  | cons inpos indices ih =>
    rw [List.foldl_cons]
    exact ih

theorem usesFeatures_force (m_spent_outputs : List CTxOut) (m_spent_outputs_ready : Bool) :
    usesFeatures tx m_spent_outputs m_spent_outputs_ready true = (true, true) :=
  foldl_scanInput_of_both m_spent_outputs m_spent_outputs_ready _

theorem foldl_scanInput_taproot (m_spent_outputs : List CTxOut) (m_spent_outputs_ready : Bool)
    (indices : List Nat) (uses : Bool × Bool)
    (taproot : (indices.foldl (scanInput tx m_spent_outputs m_spent_outputs_ready) uses).2 = true) :
    uses.2 = true ∨ ∃ inpos ∈ indices, inpos < tx.witness.vtxinwit.length ∧
      (tx.witness.vtxinwit.getD inpos default).scriptWitness.IsNull = false := by
  induction indices generalizing uses with
  | nil => exact .inl taproot
  | cons inpos indices ih =>
    rw [List.foldl_cons] at taproot
    rcases ih _ taproot with found | ⟨later, mem, bearing⟩
    · -- the step at `inpos` either kept the flag or found a script witness
      rcases uses with ⟨segwit, taprootBefore⟩
      simp only [scanInput] at found
      split_ifs at found with both bearing spentTaproot
      · exact .inl found
      · exact .inr ⟨inpos, List.mem_cons_self, by simpa using bearing⟩
      · exact .inl found
      · exact .inl found
    · exact .inr ⟨later, List.mem_cons_of_mem _ mem, bearing⟩

theorem HasWitness_of_usesFeatures (m_spent_outputs : List CTxOut) (m_spent_outputs_ready : Bool)
    (taproot : (usesFeatures tx m_spent_outputs m_spent_outputs_ready false).2 = true) :
    tx.HasWitness = true := by
  rcases foldl_scanInput_taproot m_spent_outputs m_spent_outputs_ready _ _ taproot with
    never | ⟨inpos, -, below, bearing⟩
  · cases never
  · have notNull : (tx.witness.vtxinwit.getD inpos default).IsNull = false := by
      simp only [CTxInWitness.IsNull, bearing, Bool.and_false, Bool.false_and]
    have mem : tx.witness.vtxinwit.getD inpos default ∈ tx.witness.vtxinwit := by
      rw [List.getD_eq_getElem _ _ below]
      exact List.getElem_mem below
    simp only [HasWitness, CTxWitness.IsNull, Bool.not_eq_true', Bool.and_eq_false_iff]
    exact .inl (List.all_eq_false.mpr ⟨_, mem, Bool.eq_false_iff.mp notNull⟩)

end PrecomputedTransactionData

theorem GetRangeproofsHash_padWitness (fits : tx.WitnessFits) :
    GetRangeproofsHash H tx.padWitness = GetRangeproofsHash H tx := by
  simp only [GetRangeproofsHash, vout_padWitness]
  congr 1
  apply List.flatMap_congr
  intro i mem
  have below := List.mem_range.mp mem
  simp only [padWitness, paddedWitness, getElem?_resize fits.outputs]
  by_cases kept : i < tx.witness.vtxoutwit.length
  · rw [if_pos kept]
  · rw [if_neg kept, if_pos below, List.getElem?_eq_none (by omega)]
    rfl

theorem GetWitnessOnlyHash_padWitness (fits : tx.WitnessFits) :
    GetWitnessOnlyHash H tx.padWitness = GetWitnessOnlyHash H tx := by
  simp only [GetWitnessOnlyHash]
  rw [vtxinwit_padWitness, vtxoutwit_padWitness]
  simp only [vin_padWitness, vout_padWitness, ite_or_getD_resize fits.inputs, ite_getD_resize fits.outputs]

namespace PrecomputedTransactionData

theorem sharedHashes_padWitness (data : PrecomputedTransactionData) :
    sharedHashes H data tx.padWitness = sharedHashes H data tx := rfl

theorem bip143Hashes_padWitness (fits : tx.WitnessFits) (data : PrecomputedTransactionData) :
    bip143Hashes H data tx.padWitness = bip143Hashes H data tx := by
  simp only [bip143Hashes, GetRangeproofsHash_padWitness H fits]

theorem taprootHashes_padWitness (fits : tx.WitnessFits) (has : tx.HasWitness = true)
    (data : PrecomputedTransactionData) :
    taprootHashes H data tx.padWitness = taprootHashes H data tx := by
  have hasPadded : tx.padWitness.HasWitness = true := (HasWitness_padWitness fits).trans has
  simp only [taprootHashes, SerializeTransaction_padWitness fits, afterSerialize_of_HasWitness has,
    afterSerialize_of_HasWitness hasPadded, padWitness_padWitness fits]

@[simp] theorem sharedHashes_m_spent_outputs_ready (data : PrecomputedTransactionData) :
    (sharedHashes H data tx).m_spent_outputs_ready = data.m_spent_outputs_ready := rfl

@[simp] theorem bip143Hashes_m_spent_outputs_ready (data : PrecomputedTransactionData) :
    (bip143Hashes H data tx).m_spent_outputs_ready = data.m_spent_outputs_ready := rfl

theorem Init_of_taproot {data : PrecomputedTransactionData} {spent_outputs : List CTxOut} {force : Bool}
    (taproot : (usesFeatures tx spent_outputs
      (if !spent_outputs.isEmpty then true else data.m_spent_outputs_ready) force).2 = true)
    (ready : (if !spent_outputs.isEmpty then true else data.m_spent_outputs_ready) = true) :
    ∃ before : PrecomputedTransactionData, before.m_tapsighash_hasher = data.m_tapsighash_hasher ∧
      before.m_spent_outputs_ready = true ∧
      Init H data tx spent_outputs force = (taprootHashes H before tx, tx.afterSerialize true) := by
  simp only [Init]
  generalize usesFeatures tx spent_outputs _ force = uses at taproot
  rcases uses with ⟨segwit, taprootFound⟩
  simp only at taproot
  subst taproot
  cases segwit
  · simp only [Bool.or_true, if_true, Bool.false_eq_true, if_false, Bool.true_and,
      sharedHashes_m_spent_outputs_ready, ready]
    refine ⟨_, ?_, ?_, rfl⟩ <;> rfl
  · simp only [Bool.or_true, if_true, Bool.true_and, bip143Hashes_m_spent_outputs_ready,
      sharedHashes_m_spent_outputs_ready, ready]
    refine ⟨_, ?_, ?_, rfl⟩ <;> rfl

end PrecomputedTransactionData

end Elements

namespace Elements

open Wire CMutableTransaction PrecomputedTransactionData

variable (H : Hashes) {tx : CMutableTransaction}

/-- The signature hash a verifier computes: data for the genesis hash,
`Init` on the transaction, then `SignatureHashSchnorr` on the transaction as
`Init` leaves it. -/
def sighashAfterInit (hash_genesis_block : Uint256) (tx : CTransaction) (spent_outputs : List CTxOut)
    (force : Bool) (execdata : ScriptExecutionData) (in_pos : UInt32) (hash_type : UInt8)
    (sigversion : SigVersion) : Option (Uint256 × ScriptExecutionData) :=
  let (cache, txTo) := Init H (ofGenesis H hash_genesis_block) tx spent_outputs force
  SignatureHashSchnorr H execdata txTo in_pos hash_type sigversion cache

theorem SignatureHashSchnorr_of_not_ready {cache : PrecomputedTransactionData}
    (notReady : cache.m_bip341_taproot_ready = false) (execdata : ScriptExecutionData)
    (txTo : CTransaction) (in_pos : UInt32) (hash_type : UInt8) (sigversion : SigVersion) :
    SignatureHashSchnorr H execdata txTo in_pos hash_type sigversion cache = none := by
  cases sigversion <;> simp [SignatureHashSchnorr, notReady]

theorem SignatureHashSchnorr_default {cache : PrecomputedTransactionData}
    (ready : cache.m_bip341_taproot_ready = true) (spentReady : cache.m_spent_outputs_ready = true)
    {sigversion : SigVersion} (taproot : sigversion = .TAPROOT ∨ sigversion = .TAPSCRIPT)
    (execdata : ScriptExecutionData) (txTo : CTransaction) (in_pos : UInt32) :
    ∃ pre post, SignatureHashSchnorr H execdata txTo in_pos SIGHASH_DEFAULT sigversion cache =
        some (H.sha256 (pre ++ cache.m_output_witnesses_single_hash.serialize ++ post), execdata) ∧
      pre.length = cache.m_tapsighash_hasher.length + 265 := by
  let pre := cache.m_tapsighash_hasher ++ serWritedata8 SIGHASH_DEFAULT ++
    serWritedata32 txTo.nVersion.toUInt32 ++ serWritedata32 txTo.nLockTime ++
    cache.m_outpoints_flag_single_hash.serialize ++ cache.m_prevouts_single_hash.serialize ++
    cache.m_spent_asset_amounts_single_hash.serialize ++ cache.m_spent_scripts_single_hash.serialize ++
    cache.m_sequences_single_hash.serialize ++ cache.m_issuances_single_hash.serialize ++
    cache.m_issuance_rangeproofs_single_hash.serialize ++ cache.m_outputs_single_hash.serialize
  have length : pre.length = cache.m_tapsighash_hasher.length + 265 := by
    simp [pre, Uint256.serialize, Uint256.size_data, serWritedata8, serWritedata32]
  rcases taproot with rfl | rfl <;> cases annex : execdata.m_annex_present
  · refine ⟨pre, serWritedata8 0 ++ serWritedata32 in_pos, ?_, length⟩
    simp [pre, SignatureHashSchnorr, ready, spentReady, annex, SIGHASH_DEFAULT, SIGHASH_ALL,
      SIGHASH_ANYONECANPAY, SIGHASH_INPUT_MASK, SIGHASH_SINGLE]
  · refine ⟨pre, serWritedata8 1 ++ serWritedata32 in_pos ++ execdata.m_annex_hash.serialize, ?_, length⟩
    simp [pre, SignatureHashSchnorr, ready, spentReady, annex, SIGHASH_DEFAULT, SIGHASH_ALL,
      SIGHASH_ANYONECANPAY, SIGHASH_INPUT_MASK, SIGHASH_SINGLE]
  · refine ⟨pre, serWritedata8 ((1 : UInt8) <<< 1) ++ serWritedata32 in_pos ++ execdata.m_tapleaf_hash.serialize ++
      serWritedata8 0 ++ serWritedata32 execdata.m_codeseparator_pos, ?_, length⟩
    simp [pre, SignatureHashSchnorr, ready, spentReady, annex, SIGHASH_DEFAULT, SIGHASH_ALL,
      SIGHASH_ANYONECANPAY, SIGHASH_INPUT_MASK, SIGHASH_SINGLE]
  · refine ⟨pre, serWritedata8 ((1 : UInt8) <<< 1 + 1) ++ serWritedata32 in_pos ++ execdata.m_annex_hash.serialize ++
      execdata.m_tapleaf_hash.serialize ++ serWritedata8 0 ++ serWritedata32 execdata.m_codeseparator_pos,
      ?_, length⟩
    simp [pre, SignatureHashSchnorr, ready, spentReady, annex, SIGHASH_DEFAULT, SIGHASH_ALL,
      SIGHASH_ANYONECANPAY, SIGHASH_INPUT_MASK, SIGHASH_SINGLE]
/-- With a witness, or without `force`, the verifier's signature hash
does not depend on how the witness vectors are padded. -/
theorem sighashAfterInit_padWitness (fits : tx.WitnessFits) {spent_outputs : List CTxOut} {force : Bool}
    (padded : tx.HasWitness = true ∨ force = false ∨ spent_outputs = []) (hash_genesis_block : Uint256)
    (execdata : ScriptExecutionData) (in_pos : UInt32) (hash_type : UInt8) (sigversion : SigVersion) :
    sighashAfterInit H hash_genesis_block tx.padWitness spent_outputs force execdata in_pos hash_type
        sigversion =
      sighashAfterInit H hash_genesis_block tx spent_outputs force execdata in_pos hash_type sigversion := by
  -- only a transaction with a witness gets the taproot data, unless it is forced
  have key : (usesFeatures tx spent_outputs (if (!spent_outputs.isEmpty) = true then true
        else (ofGenesis H hash_genesis_block).m_spent_outputs_ready) force).2 = true →
      (if (!spent_outputs.isEmpty) = true then true
        else (ofGenesis H hash_genesis_block).m_spent_outputs_ready) = true →
      tx.HasWitness = true := by
    intro taproot ready
    rcases padded with has | noForce | noSpent
    · exact has
    · subst noForce
      exact HasWitness_of_usesFeatures _ _ taproot
    · subst noSpent
      cases ready
  simp only [sighashAfterInit, Init, usesFeatures_padWitness fits, sharedHashes_padWitness,
    bip143Hashes_padWitness H fits]
  generalize usesFeatures tx spent_outputs _ force = uses at key ⊢
  generalize (if (!spent_outputs.isEmpty) = true then true
    else (ofGenesis H hash_genesis_block).m_spent_outputs_ready) = ready at key ⊢
  rcases uses with ⟨segwit, taproot⟩
  cases taproot <;> cases ready <;> cases segwit <;>
    simp only [Bool.or_true, Bool.or_false, Bool.true_and, Bool.false_and, Bool.and_false,
      Bool.false_eq_true, if_true, if_false, bip143Hashes_m_spent_outputs_ready,
      sharedHashes_m_spent_outputs_ready]
  case true.true.false | true.true.true =>
    -- the taproot branch pads both before it takes the witness digests
    have has := key rfl rfl
    rw [taprootHashes_padWitness H fits has, afterSerialize_of_HasWitness has,
      afterSerialize_of_HasWitness ((HasWitness_padWitness fits).trans has), padWitness_padWitness fits]
  -- otherwise neither has the taproot data, nor a signature hash
  all_goals rw [SignatureHashSchnorr_of_not_ready H rfl, SignatureHashSchnorr_of_not_ready H rfl]

def emptyMessageHashes : Hashes where
  sha256 bytes := if bytes.isEmpty then Uint256.zero else ⟨List.replicate 32 1, by simp⟩
  sha256Midstate _ := Uint256.zero
  ripemd160 _ := []

def oneInOneOut (witness : CTxWitness) : CMutableTransaction :=
  ⟨[⟨⟨Uint256.zero, 0⟩, [], 0, CAssetIssuance.null, false⟩], [default], 2, 0, witness⟩

theorem sighashAfterInit_padWitness_signed :
    let tx := oneInOneOut ⟨[⟨[], [], ⟨[[1]]⟩, ⟨[]⟩⟩], []⟩
    let execdata : ScriptExecutionData := ⟨Uint256.zero, 0, false, Uint256.zero, none, none⟩
    sighashAfterInit emptyMessageHashes Uint256.zero tx.padWitness [default] true execdata 0
        SIGHASH_DEFAULT .TAPROOT =
      sighashAfterInit emptyMessageHashes Uint256.zero tx [default] true execdata 0 SIGHASH_DEFAULT
        .TAPROOT := by
  intro tx execdata
  exact sighashAfterInit_padWitness emptyMessageHashes ⟨by decide, by decide⟩ (Or.inl rfl) _ _ _ _ _

theorem flatMap_serialize_of_all_IsNull :
    ∀ (witnesses : List CTxOutWitness), witnesses.all CTxOutWitness.IsNull = true →
      witnesses.flatMap CTxOutWitness.serialize = List.replicate (2 * witnesses.length) 0
  | [], _ => rfl
  | ⟨surjection, range⟩ :: witnesses, null => by
    simp only [List.all_cons, Bool.and_eq_true, CTxOutWitness.IsNull, List.isEmpty_iff] at null
    rcases null with ⟨⟨rfl, rfl⟩, rest⟩
    rw [List.flatMap_cons, flatMap_serialize_of_all_IsNull witnesses rest, List.length_cons,
      show 2 * (witnesses.length + 1) = 2 + 2 * witnesses.length by omega, List.replicate_add]
    rfl

theorem GetOutputWitnessesSHA256_of_not_HasWitness (noWitness : tx.HasWitness = false) :
    GetOutputWitnessesSHA256 H tx = H.sha256 (List.replicate (2 * tx.witness.vtxoutwit.length) 0) := by
  have null : tx.witness.vtxoutwit.all CTxOutWitness.IsNull = true := by
    simp only [HasWitness, CTxWitness.IsNull, Bool.not_eq_false', Bool.and_eq_true] at noWitness
    exact noWitness.2
  rw [GetOutputWitnessesSHA256, flatMap_serialize_of_all_IsNull _ null]

theorem GetOutputWitnessesSHA256_padWitness (fits : tx.WitnessFits) (noWitness : tx.HasWitness = false) :
    GetOutputWitnessesSHA256 H tx.padWitness = H.sha256 (List.replicate (2 * tx.vout.length) 0) := by
  rw [GetOutputWitnessesSHA256_of_not_HasWitness H ((HasWitness_padWitness fits).trans noWitness),
    vtxoutwit_padWitness, length_resize fits.outputs]

theorem Init_force_of_not_HasWitness (noWitness : tx.HasWitness = false) {spent_outputs : List CTxOut}
    (spent : spent_outputs ≠ []) (hash_genesis_block : Uint256) :
    ∃ cache : PrecomputedTransactionData,
      Init H (ofGenesis H hash_genesis_block) tx spent_outputs true = (cache, tx) ∧
      cache.m_bip341_taproot_ready = true ∧ cache.m_spent_outputs_ready = true ∧
      cache.m_tapsighash_hasher = (ofGenesis H hash_genesis_block).m_tapsighash_hasher ∧
      cache.m_output_witnesses_single_hash = GetOutputWitnessesSHA256 H tx := by
  have ready : (if !spent_outputs.isEmpty then true
      else (ofGenesis H hash_genesis_block).m_spent_outputs_ready) = true := by
    simp [spent]
  have taproot : (usesFeatures tx spent_outputs (if !spent_outputs.isEmpty then true
      else (ofGenesis H hash_genesis_block).m_spent_outputs_ready) true).2 = true := by
    rw [usesFeatures_force]
  rcases Init_of_taproot H taproot ready with ⟨before, hasher, spentReady, init⟩
  rw [afterSerialize_of_not_HasWitness noWitness] at init
  exact ⟨_, init, rfl, spentReady, hasher, by simp [taprootHashes, afterSerialize_of_not_HasWitness noWitness]⟩

theorem append_serialize_append_ne {pre pre' post post' : Bytes} {digest digest' : Uint256}
    (length : pre.length = pre'.length) (differ : digest ≠ digest') :
    pre ++ digest.serialize ++ post ≠ pre' ++ digest'.serialize ++ post' := by
  intro same
  rw [List.append_assoc, List.append_assoc] at same
  have rest := (List.append_inj same length).2
  have digests := (List.append_inj rest (by simp [Uint256.serialize, Uint256.size_data])).1
  apply differ
  cases digest
  cases digest'
  simp only [Uint256.serialize] at digests
  subst digests
  rfl

/-- Under `force`, a transaction without a witness and the same
transaction with padded witness vectors serialize alike and have the same
witness-only hash, but their default-type signature hashes are taken over
different messages: the output witness digest counts the output witnesses
present. The statement stops at the messages because `H.sha256` is an
abstract hash: no function from all byte strings to 32 bytes is injective, and
equal signature hashes here would be a SHA-256 collision between two messages
of one length that differ in 32 bytes. -/
theorem sighashAfterInit_depends_on_padding (fits : tx.WitnessFits) (noWitness : tx.HasWitness = false)
    {spent_outputs : List CTxOut} (spent : spent_outputs ≠ [])
    (distinct : H.sha256 (List.replicate (2 * tx.witness.vtxoutwit.length) 0) ≠
      H.sha256 (List.replicate (2 * tx.vout.length) 0))
    {sigversion : SigVersion} (taproot : sigversion = .TAPROOT ∨ sigversion = .TAPSCRIPT)
    (hash_genesis_block : Uint256) (execdata : ScriptExecutionData) (in_pos : UInt32) :
    SerializeTransaction true tx.padWitness = SerializeTransaction true tx ∧
      SerializeTransaction false tx.padWitness = SerializeTransaction false tx ∧
      GetWitnessOnlyHash H tx.padWitness = GetWitnessOnlyHash H tx ∧
      ∃ message message',
        sighashAfterInit H hash_genesis_block tx spent_outputs true execdata in_pos SIGHASH_DEFAULT
            sigversion = some (H.sha256 message, execdata) ∧
        sighashAfterInit H hash_genesis_block tx.padWitness spent_outputs true execdata in_pos
            SIGHASH_DEFAULT sigversion = some (H.sha256 message', execdata) ∧
        message ≠ message' := by
  refine ⟨SerializeTransaction_padWitness fits true, SerializeTransaction_padWitness fits false,
    GetWitnessOnlyHash_padWitness H fits, ?_⟩
  have paddedNoWitness := (HasWitness_padWitness fits).trans noWitness
  rcases Init_force_of_not_HasWitness H noWitness spent hash_genesis_block with
    ⟨cache, init, ready, spentReady, hasher, outputs⟩
  rcases Init_force_of_not_HasWitness H paddedNoWitness spent hash_genesis_block with
    ⟨cache', init', ready', spentReady', hasher', outputs'⟩
  rcases SignatureHashSchnorr_default H ready spentReady taproot execdata tx in_pos with
    ⟨pre, post, sighash, length⟩
  rcases SignatureHashSchnorr_default H ready' spentReady' taproot execdata tx.padWitness in_pos with
    ⟨pre', post', sighash', length'⟩
  refine ⟨_, _, by rw [sighashAfterInit, init]; exact sighash,
    by rw [sighashAfterInit, init']; exact sighash', ?_⟩
  -- the two messages agree up to the output witness digest, which differs
  apply append_serialize_append_ne (by rw [length, length', hasher, hasher'])
  rw [outputs, outputs', GetOutputWitnessesSHA256_of_not_HasWitness H noWitness,
    GetOutputWitnessesSHA256_padWitness H fits noWitness]
  exact distinct

theorem sighashAfterInit_depends_on_padding_unsigned :
    let tx := oneInOneOut CTxWitness.empty
    let execdata : ScriptExecutionData := ⟨Uint256.zero, 0, false, Uint256.zero, none, none⟩
    SerializeTransaction true tx.padWitness = SerializeTransaction true tx ∧
      SerializeTransaction false tx.padWitness = SerializeTransaction false tx ∧
      GetWitnessOnlyHash emptyMessageHashes tx.padWitness = GetWitnessOnlyHash emptyMessageHashes tx ∧
      ∃ message message',
        sighashAfterInit emptyMessageHashes Uint256.zero tx [default] true execdata 0 SIGHASH_DEFAULT
            .TAPROOT = some (emptyMessageHashes.sha256 message, execdata) ∧
        sighashAfterInit emptyMessageHashes Uint256.zero tx.padWitness [default] true execdata 0
            SIGHASH_DEFAULT .TAPROOT = some (emptyMessageHashes.sha256 message', execdata) ∧
        message ≠ message' := by
  intro tx execdata
  exact sighashAfterInit_depends_on_padding emptyMessageHashes ⟨by decide, by decide⟩ rfl
    (List.cons_ne_nil _ _) (by decide) (Or.inl rfl) _ _ _

end Elements
