import Elements.Wire.Bits
import Elements.Primitives.Transaction
import Elements.Crypto.Hash

/-! The Elements wire format read back. Each object of `primitives/` decodes
from its own encoding whatever bytes follow it, and whatever the decoder
accepts is the encoding of what it returns. The writer accepts values the
reader never produces (a null issuance with stray fields, an index whose flag
bits make the coinbase marker, a vector longer than `MAX_SIZE`); what an
object needs for its encoding to read back as itself is gathered in its
`Encodable` structure. -/

namespace Elements

open Wire Wire.Decoder

namespace CConfidentialCommitment

variable {E : Nat} {A B : UInt8}

@[simp] theorem serialize_null : (null : CConfidentialCommitment E A B).serialize = [0] := rfl

theorem serialize_cons (version : UInt8) (body : Bytes) :
    (⟨version :: body⟩ : CConfidentialCommitment E A B).serialize = version :: body := by
  cases body <;> simp [serialize, serWritedata8]

theorem unserialize_roundTrip (prefixA : A ≠ 0 ∧ A ≠ 1) (prefixB : B ≠ 0 ∧ B ≠ 1)
    (c : CConfidentialCommitment E A B) (valid : c.IsValid = true) :
    RoundTrip serialize unserialize c := by
  intro rest
  rcases c with ⟨_ | ⟨version, body⟩⟩
  · rfl
  · rw [serialize_cons]
    simp only [IsValid, IsNull, IsExplicit, IsCommitment, nCommittedSize, List.isEmpty_cons,
      List.length_cons, List.head?_cons, Option.some.injEq, Bool.false_or, Bool.or_eq_true,
      Bool.and_eq_true, beq_iff_eq] at valid
    -- the version byte selects how many bytes follow it
    rcases valid with ⟨length, rfl⟩ | ⟨length, prefixed⟩
    · have count : E - 1 = body.length := by omega
      have versionOne : (1 : UInt8) ≠ 0 := by decide
      simp only [unserialize, List.cons_append, bind_apply, serReaddata8, readByte, versionOne,
        if_false, if_true, count]
      rw [readBytes_append]
      rfl
    · have notNull : version ≠ 0 := by rcases prefixed with rfl | rfl <;> simp [prefixA, prefixB]
      have notExplicit : version ≠ 1 := by
        rcases prefixed with rfl | rfl <;> simp [prefixA, prefixB]
      have count : nCommittedSize - 1 = body.length := by simp [nCommittedSize]; omega
      simp only [unserialize, List.cons_append, bind_apply, serReaddata8, readByte, notNull,
        notExplicit, prefixed, if_false, if_true, count]
      rw [readBytes_append]
      rfl

theorem unserialize_canonical : Canonical serialize (unserialize : Decoder (CConfidentialCommitment E A B)) := by
  intro input c rest read
  rcases bind_eq_ok read with ⟨version, after, first, read⟩
  rw [← serReaddata8_canonical _ _ _ first, serWritedata8, List.singleton_append]
  split_ifs at read with null explicit committed
  · cases read
    rw [null]
    rfl
  · rcases bind_eq_ok read with ⟨body, rest', taken, read⟩
    cases read
    rw [serialize_cons, List.cons_append, (readBytes_eq_ok taken).2]
  · rcases bind_eq_ok read with ⟨body, rest', taken, read⟩
    cases read
    rw [serialize_cons, List.cons_append, (readBytes_eq_ok taken).2]
  · cases read

end CConfidentialCommitment

theorem CConfidentialAsset.unserialize_roundTrip (c : CConfidentialAsset) (valid : c.IsValid = true) :
    RoundTrip CConfidentialCommitment.serialize CConfidentialCommitment.unserialize c :=
  CConfidentialCommitment.unserialize_roundTrip (by decide) (by decide) c valid

theorem CConfidentialValue.unserialize_roundTrip (c : CConfidentialValue) (valid : c.IsValid = true) :
    RoundTrip CConfidentialCommitment.serialize CConfidentialCommitment.unserialize c :=
  CConfidentialCommitment.unserialize_roundTrip (by decide) (by decide) c valid

theorem CConfidentialNonce.unserialize_roundTrip (c : CConfidentialNonce) (valid : c.IsValid = true) :
    RoundTrip CConfidentialCommitment.serialize CConfidentialCommitment.unserialize c :=
  CConfidentialCommitment.unserialize_roundTrip (by decide) (by decide) c valid

namespace CAssetIssuance

theorem unserialize_roundTrip (issuance : CAssetIssuance)
    (valid : issuance.nAmount.IsValid = true ∧ issuance.nInflationKeys.IsValid = true) :
    RoundTrip serialize unserialize issuance := by
  intro rest
  simp only [serialize, unserialize, List.append_assoc]
  rw [bind_of_ok (Uint256.unserialize_roundTrip _ _), bind_of_ok (Uint256.unserialize_roundTrip _ _),
    bind_of_ok (CConfidentialValue.unserialize_roundTrip _ valid.1 _),
    bind_of_ok (CConfidentialValue.unserialize_roundTrip _ valid.2 _)]
  rfl

theorem unserialize_canonical : Canonical serialize unserialize := by
  intro input issuance rest read
  rcases bind_eq_ok_of_canonical Uint256.unserialize_canonical read with ⟨nonce, _, rfl, read₁⟩
  rcases bind_eq_ok_of_canonical Uint256.unserialize_canonical read₁ with ⟨entropy, _, rfl, read₂⟩
  obtain ⟨amount, _, rfl, read₃⟩ :=
    bind_eq_ok_of_canonical CConfidentialCommitment.unserialize_canonical read₂
  obtain ⟨keys, _, rfl, read₄⟩ :=
    bind_eq_ok_of_canonical CConfidentialCommitment.unserialize_canonical read₃
  cases read₄
  simp [serialize]

end CAssetIssuance

namespace COutPoint

theorem unserialize_roundTrip (outpoint : COutPoint) : RoundTrip serialize unserialize outpoint := by
  intro rest
  simp only [serialize, unserialize, List.append_assoc]
  rw [bind_of_ok (Uint256.unserialize_roundTrip _ _), bind_of_ok (serReaddata32_roundTrip _ _)]
  rfl

theorem unserialize_canonical : Canonical serialize unserialize := by
  intro input outpoint rest read
  rcases bind_eq_ok_of_canonical Uint256.unserialize_canonical read with ⟨hash, _, rfl, read₁⟩
  rcases bind_eq_ok_of_canonical serReaddata32_canonical read₁ with ⟨n, _, rfl, read₂⟩
  cases read₂
  simp [serialize]

theorem toNat_OUTPOINT_INDEX_MASK : OUTPOINT_INDEX_MASK.toNat = 2 ^ 30 - 1 := rfl

theorem toNat_OUTPOINT_PEGIN_FLAG : OUTPOINT_PEGIN_FLAG.toNat = 2 ^ 30 := rfl

theorem toNat_OUTPOINT_ISSUANCE_FLAG : OUTPOINT_ISSUANCE_FLAG.toNat = 2 ^ 31 := rfl

theorem toNat_NULL_INDEX : NULL_INDEX.toNat = 2 ^ 32 - 1 := rfl

theorem and_flag_ne_zero (n flag : UInt32) {j : Nat} (bit : flag.toNat = 2 ^ j) :
    (n &&& flag != 0) = n.toNat.testBit j := by
  have zero : n &&& flag = 0 ↔ n.toNat.testBit j = false := by
    rw [← UInt32.toNat_inj, UInt32.toNat_and, bit, UInt32.toNat_zero, and_two_pow_eq_zero_iff]
  rw [Bool.eq_iff_iff, bne_iff_ne, ne_eq, zero, Bool.not_eq_false]

theorem toNat_setFlag (n flag : UInt32) {j : Nat} (bit : flag.toNat = 2 ^ j) (set : Bool) :
    (if set then n ||| flag else n).toNat = setBitIf n.toNat j set := by
  cases set <;> simp [setBitIf, bit]

/-- The index `CTxIn::Serialize` writes for a non-coinbase input: the output
number masked, then the issuance and peg-in flags set as asked. -/
def flaggedIndex (n : UInt32) (issuance pegin : Bool) : UInt32 :=
  let n := n &&& OUTPOINT_INDEX_MASK
  let n := if issuance then n ||| OUTPOINT_ISSUANCE_FLAG else n
  if pegin then n ||| OUTPOINT_PEGIN_FLAG else n

theorem testBit_flaggedIndex (n : UInt32) (issuance pegin : Bool) (i : Nat) :
    (flaggedIndex n issuance pegin).toNat.testBit i =
      ((n.toNat.testBit i && decide (i < 30)) || (issuance && decide (31 = i)) ||
        (pegin && decide (30 = i))) := by
  rw [flaggedIndex, toNat_setFlag _ _ toNat_OUTPOINT_PEGIN_FLAG, testBit_setBitIf,
    toNat_setFlag _ _ toNat_OUTPOINT_ISSUANCE_FLAG, testBit_setBitIf, UInt32.toNat_and,
    toNat_OUTPOINT_INDEX_MASK, testBit_and_mask]

theorem toNat_lt_of_le_mask {n : UInt32} (small : n ≤ OUTPOINT_INDEX_MASK) : n.toNat < 2 ^ 30 := by
  rw [UInt32.le_iff_toNat_le, toNat_OUTPOINT_INDEX_MASK] at small
  omega

theorem and_not_mask_of_le {n : UInt32} (small : n ≤ OUTPOINT_INDEX_MASK) :
    n &&& ~~~OUTPOINT_INDEX_MASK = 0 := by
  have masked : n &&& OUTPOINT_INDEX_MASK = n := by
    apply UInt32.toNat_inj.mp
    rw [UInt32.toNat_and, toNat_OUTPOINT_INDEX_MASK, Nat.and_two_pow_sub_one_eq_mod,
      Nat.mod_eq_of_lt (toNat_lt_of_le_mask small)]
  rw [← masked, UInt32.and_assoc, UInt32.and_not_self, UInt32.and_zero]

end COutPoint

namespace CTxIn

open COutPoint

structure Encodable (txin : CTxIn) : Prop where
  index : (txin.prevout.n = NULL_INDEX ∧ txin.assetIssuance.IsNull = true ∧ txin.isPegin = false) ∨
    (txin.prevout.n ≤ OUTPOINT_INDEX_MASK ∧ ¬(txin.prevout.n = OUTPOINT_INDEX_MASK ∧
      txin.assetIssuance.IsNull = false ∧ txin.isPegin = true))
  nullIssuance : txin.assetIssuance.IsNull = true → txin.assetIssuance = CAssetIssuance.null
  amounts : txin.assetIssuance.nAmount.IsValid = true ∧
    txin.assetIssuance.nInflationKeys.IsValid = true
  scriptSig : Fits txin.scriptSig

theorem wireOutpoint_of_ne {txin : CTxIn} (notCoinbase : txin.prevout.n ≠ NULL_INDEX) :
    txin.wireOutpoint = (!txin.assetIssuance.IsNull,
      ⟨txin.prevout.hash, flaggedIndex txin.prevout.n (!txin.assetIssuance.IsNull) txin.isPegin⟩) := by
  simp only [wireOutpoint, flaggedIndex, notCoinbase, if_false]

theorem readOutpoint_wireOutpoint {txin : CTxIn} (encodable : txin.Encodable) :
    txin.wireOutpoint.1 = !txin.assetIssuance.IsNull ∧
      readOutpoint txin.wireOutpoint.2 = (!txin.assetIssuance.IsNull, txin.prevout, txin.isPegin) := by
  rcases encodable.index with ⟨coinbase, null, notPegin⟩ | ⟨small, notMarker⟩
  · simp [wireOutpoint, readOutpoint, coinbase, null, notPegin]
  · have below := toNat_lt_of_le_mask small
    have notCoinbase : txin.prevout.n ≠ NULL_INDEX := by
      intro coinbase
      rw [coinbase, toNat_NULL_INDEX] at below
      omega
    rw [wireOutpoint_of_ne notCoinbase]
    refine ⟨rfl, ?_⟩
    -- every bit of the index the writer sends, from the number and the flags
    have bits := testBit_flaggedIndex txin.prevout.n (!txin.assetIssuance.IsNull) txin.isPegin
    have high : ∀ i, 30 ≤ i → txin.prevout.n.toNat.testBit i = false :=
      fun i above => testBit_eq_false_of_lt_two_pow below above
    have notNull : flaggedIndex txin.prevout.n (!txin.assetIssuance.IsNull) txin.isPegin ≠
        NULL_INDEX := by
      intro marker
      have bit : ∀ i < 32, (flaggedIndex txin.prevout.n (!txin.assetIssuance.IsNull)
          txin.isPegin).toNat.testBit i = true := by
        intro i lt
        rw [marker, toNat_NULL_INDEX, Nat.testBit_two_pow_sub_one]
        exact decide_eq_true lt
      apply notMarker
      refine ⟨?_, ?_, ?_⟩
      · rw [← UInt32.toNat_inj, toNat_OUTPOINT_INDEX_MASK]
        refine eq_two_pow_sub_one below fun i lt => ?_
        have := bit i (by omega)
        rw [bits] at this
        simpa [lt, show (31 : Nat) ≠ i by omega, show (30 : Nat) ≠ i by omega] using this
      · have := bit 31 (by omega)
        rw [bits, high 31 (by omega)] at this
        simpa using this
      · have := bit 30 (by omega)
        rw [bits, high 30 (by omega)] at this
        simpa using this
    simp only [readOutpoint, notNull, if_false, Prod.mk.injEq]
    refine ⟨?_, ?_, ?_⟩
    · rw [and_flag_ne_zero _ _ toNat_OUTPOINT_ISSUANCE_FLAG, bits, high 31 (by omega)]
      simp
    · refine congrArg (COutPoint.mk txin.prevout.hash) ?_
      rw [← UInt32.toNat_inj, UInt32.toNat_and, toNat_OUTPOINT_INDEX_MASK]
      apply Nat.eq_of_testBit_eq
      intro i
      rw [testBit_and_mask, bits]
      by_cases lt : i < 30
      · simp [lt, show (31 : Nat) ≠ i by omega, show (30 : Nat) ≠ i by omega]
      · simp [lt, high i (by omega)]
    · rw [and_flag_ne_zero _ _ toNat_OUTPOINT_PEGIN_FLAG, bits, high 30 (by omega)]
      simp

theorem wireOutpoint_readOutpoint (outpoint : COutPoint) (scriptSig : CScript) (nSequence : UInt32)
    (assetIssuance : CAssetIssuance)
    (present : (readOutpoint outpoint).1 = !assetIssuance.IsNull) :
    wireOutpoint ⟨(readOutpoint outpoint).2.1, scriptSig, nSequence, assetIssuance,
      (readOutpoint outpoint).2.2⟩ = ((readOutpoint outpoint).1, outpoint) := by
  by_cases coinbase : outpoint.n = NULL_INDEX
  · simp [readOutpoint, wireOutpoint, coinbase]
  · simp only [readOutpoint, coinbase, if_false] at present ⊢
    have masked : (outpoint.n &&& OUTPOINT_INDEX_MASK).toNat < 2 ^ 30 := by
      rw [UInt32.toNat_and, toNat_OUTPOINT_INDEX_MASK, Nat.and_two_pow_sub_one_eq_mod]
      exact Nat.mod_lt _ (by decide)
    have notCoinbase : outpoint.n &&& OUTPOINT_INDEX_MASK ≠ NULL_INDEX := by
      intro marker
      rw [marker, toNat_NULL_INDEX] at masked
      omega
    rw [wireOutpoint_of_ne notCoinbase, ← present]
    refine Prod.ext rfl (congrArg (COutPoint.mk outpoint.hash) ?_)
    -- the masked number and the two flag bits make up the whole index
    rw [← UInt32.toNat_inj]
    apply Nat.eq_of_testBit_eq
    intro i
    rw [testBit_flaggedIndex, and_flag_ne_zero _ _ toNat_OUTPOINT_ISSUANCE_FLAG,
      and_flag_ne_zero _ _ toNat_OUTPOINT_PEGIN_FLAG, UInt32.toNat_and, toNat_OUTPOINT_INDEX_MASK,
      testBit_and_mask]
    by_cases low : i < 30
    · simp [low, show (31 : Nat) ≠ i by omega, show (30 : Nat) ≠ i by omega]
    · by_cases pegin : i = 30
      · subst pegin
        simp
      · by_cases issuance : i = 31
        · subst issuance
          simp
        · have word : outpoint.n.toNat < 2 ^ i :=
            lt_of_lt_of_le outpoint.n.toNat_lt (Nat.pow_le_pow_right (by decide) (by omega))
          simp [low, Ne.symm pegin, Ne.symm issuance, Nat.testBit_lt_two_pow word]

theorem unserialize_roundTrip (txin : CTxIn) (encodable : txin.Encodable) :
    RoundTrip serialize unserialize txin := by
  intro rest
  rcases readOutpoint_wireOutpoint encodable with ⟨present, readBack⟩
  rcases wire : txin.wireOutpoint with ⟨fHasAssetIssuance, outpoint⟩
  rw [wire] at present readBack
  simp only at present readBack
  simp only [serialize, unserialize, wire, List.append_assoc]
  rw [bind_of_ok (COutPoint.unserialize_roundTrip _ _)]
  simp only [readBack]
  rw [bind_of_ok (unserializeBytes_roundTrip _ encodable.scriptSig _),
    bind_of_ok (serReaddata32_roundTrip _ _)]
  cases null : txin.assetIssuance.IsNull
  · -- an issuance is written and read back
    simp only [present, null, Bool.not_false, if_true]
    rw [bind_of_ok (CAssetIssuance.unserialize_roundTrip _ encodable.amounts _)]
    simp only [null, Bool.false_eq_true, if_false, pure_apply]
  · -- no issuance on the wire: the reader restores the default one
    simp only [present, null, Bool.not_true, Bool.false_eq_true, if_false, List.nil_append,
      pure_apply]
    rw [← encodable.nullIssuance null]

theorem unserialize_canonical : Canonical serialize unserialize := by
  intro input txin rest read
  rcases bind_eq_ok_of_canonical COutPoint.unserialize_canonical read with ⟨outpoint, _, rfl, read₁⟩
  rcases split : readOutpoint outpoint with ⟨fHasAssetIssuance, prevout, isPegin⟩
  simp only [split] at read₁
  rcases bind_eq_ok_of_canonical unserializeBytes_canonical read₁ with ⟨scriptSig, _, rfl, read₂⟩
  rcases bind_eq_ok_of_canonical serReaddata32_canonical read₂ with ⟨nSequence, _, rfl, read₃⟩
  cases fHasAssetIssuance
  · simp only [Bool.false_eq_true, if_false, pure_apply, Except.ok.injEq, Prod.mk.injEq] at read₃
    rcases read₃ with ⟨rfl, rfl⟩
    have wire := wireOutpoint_readOutpoint outpoint scriptSig nSequence CAssetIssuance.null
      (by rw [split]; rfl)
    rw [split] at wire
    simp [serialize, wire]
  · obtain ⟨assetIssuance, _, rfl, read₄⟩ :=
      bind_eq_ok_of_canonical CAssetIssuance.unserialize_canonical read₃
    cases null : assetIssuance.IsNull
    · simp only [null, Bool.false_eq_true, if_false, pure_apply, Except.ok.injEq,
        Prod.mk.injEq] at read₄
      rcases read₄ with ⟨rfl, rfl⟩
      have wire := wireOutpoint_readOutpoint outpoint scriptSig nSequence assetIssuance
        (by rw [split, null]; rfl)
      rw [split] at wire
      simp [serialize, wire]
    · simp [null] at read₄

theorem serializeAsserts_of_encodable {txin : CTxIn} (encodable : txin.Encodable) :
    txin.serializeAsserts = true := by
  rcases encodable.index with ⟨coinbase, -, -⟩ | ⟨small, -⟩
  · simp [serializeAsserts, coinbase]
  · simp [serializeAsserts, and_not_mask_of_le small]

theorem serializeAsserts_of_unserialize {input rest : Bytes} {txin : CTxIn}
    (read : unserialize input = .ok (txin, rest)) : txin.serializeAsserts = true := by
  rcases bind_eq_ok read with ⟨outpoint, _, -, read₁⟩
  have index : ((readOutpoint outpoint).2.1.n == NULL_INDEX ||
      (readOutpoint outpoint).2.1.n &&& ~~~OUTPOINT_INDEX_MASK == 0) = true := by
    unfold readOutpoint
    split_ifs with coinbase
    · simp [coinbase]
    · simp [UInt32.and_assoc]
  rcases split : readOutpoint outpoint with ⟨fHasAssetIssuance, prevout, isPegin⟩
  rw [split] at index
  simp only [split] at read₁
  rcases bind_eq_ok read₁ with ⟨scriptSig, _, -, read₂⟩
  rcases bind_eq_ok read₂ with ⟨nSequence, _, -, read₃⟩
  -- whichever branch returns, the input carries the outpoint split off
  have same : txin.prevout = prevout := by
    cases fHasAssetIssuance
    · simp only [Bool.false_eq_true, if_false, pure_apply, Except.ok.injEq, Prod.mk.injEq] at read₃
      rw [← read₃.1]
    · rcases bind_eq_ok read₃ with ⟨assetIssuance, _, -, read₄⟩
      cases null : assetIssuance.IsNull
      · simp only [null, Bool.false_eq_true, if_false, pure_apply, Except.ok.injEq,
          Prod.mk.injEq] at read₄
        rw [← read₄.1]
      · simp [null] at read₄
  rw [serializeAsserts, same]
  exact index

end CTxIn

namespace CTxOut

structure Encodable (txout : CTxOut) : Prop where
  asset : txout.nAsset.IsValid = true ∧ txout.nAsset.IsNull = false
  value : txout.nValue.IsValid = true ∧ txout.nValue.IsNull = false
  nonce : txout.nNonce.IsValid = true
  scriptPubKey : Fits txout.scriptPubKey

theorem unserialize_roundTrip (txout : CTxOut) (encodable : txout.Encodable) :
    RoundTrip serialize unserialize txout := by
  intro rest
  simp only [serialize, unserialize, List.append_assoc]
  rw [bind_of_ok (CConfidentialAsset.unserialize_roundTrip _ encodable.asset.1 _),
    bind_of_ok (CConfidentialValue.unserialize_roundTrip _ encodable.value.1 _),
    bind_of_ok (CConfidentialNonce.unserialize_roundTrip _ encodable.nonce _)]
  simp only [encodable.asset.2, encodable.value.2, Bool.or_false, Bool.false_eq_true, if_false]
  rw [bind_of_ok (unserializeBytes_roundTrip _ encodable.scriptPubKey _)]
  rfl

theorem unserialize_canonical : Canonical serialize unserialize := by
  intro input txout rest read
  obtain ⟨nAsset, _, rfl, read₁⟩ :=
    bind_eq_ok_of_canonical CConfidentialCommitment.unserialize_canonical read
  obtain ⟨nValue, _, rfl, read₂⟩ :=
    bind_eq_ok_of_canonical CConfidentialCommitment.unserialize_canonical read₁
  obtain ⟨nNonce, _, rfl, read₃⟩ :=
    bind_eq_ok_of_canonical CConfidentialCommitment.unserialize_canonical read₂
  split_ifs at read₃ with null
  · simp at read₃
  rcases bind_eq_ok_of_canonical unserializeBytes_canonical read₃ with ⟨scriptPubKey, _, rfl, read₄⟩
  cases read₄
  simp [serialize]

end CTxOut

def StackFits (stack : List Bytes) : Prop := Fits stack ∧ ∀ item ∈ stack, Fits item

theorem unserializeStack_roundTrip (stack : List Bytes) (fits : StackFits stack) :
    RoundTrip (serializeVector serializeBytes) (unserializeVector unserializeBytes) stack :=
  unserializeVector_roundTrip _ _ _ fits.1 fun item mem =>
    unserializeBytes_roundTrip item (fits.2 item mem)

namespace CTxInWitness

structure Encodable (witness : CTxInWitness) : Prop where
  issuanceAmountRangeproof : Fits witness.vchIssuanceAmountRangeproof
  inflationKeysRangeproof : Fits witness.vchInflationKeysRangeproof
  scriptWitness : StackFits witness.scriptWitness.stack
  peginWitness : StackFits witness.peginWitness.stack

theorem empty_encodable : empty.Encodable := by
  refine ⟨?_, ?_, ⟨?_, ?_⟩, ⟨?_, ?_⟩⟩ <;> simp [empty, Fits]

theorem unserialize_roundTrip (witness : CTxInWitness) (encodable : witness.Encodable) :
    RoundTrip serialize unserialize witness := by
  intro rest
  simp only [serialize, unserialize, List.append_assoc]
  rw [bind_of_ok (unserializeBytes_roundTrip _ encodable.issuanceAmountRangeproof _),
    bind_of_ok (unserializeBytes_roundTrip _ encodable.inflationKeysRangeproof _),
    bind_of_ok (unserializeStack_roundTrip _ encodable.scriptWitness _),
    bind_of_ok (unserializeStack_roundTrip _ encodable.peginWitness _)]
  rfl

theorem unserialize_canonical : Canonical serialize unserialize := by
  intro input witness rest read
  have stackCanonical := unserializeVector_canonical unserializeBytes_canonical
  rcases bind_eq_ok_of_canonical unserializeBytes_canonical read with ⟨amountProof, _, rfl, read₁⟩
  rcases bind_eq_ok_of_canonical unserializeBytes_canonical read₁ with ⟨keysProof, _, rfl, read₂⟩
  rcases bind_eq_ok_of_canonical stackCanonical read₂ with ⟨scriptWitness, _, rfl, read₃⟩
  rcases bind_eq_ok_of_canonical stackCanonical read₃ with ⟨peginWitness, _, rfl, read₄⟩
  cases read₄
  simp [serialize]

end CTxInWitness

namespace CTxOutWitness

structure Encodable (witness : CTxOutWitness) : Prop where
  surjectionproof : Fits witness.vchSurjectionproof
  rangeproof : Fits witness.vchRangeproof

theorem empty_encodable : empty.Encodable := ⟨by simp [empty, Fits], by simp [empty, Fits]⟩

theorem unserialize_roundTrip (witness : CTxOutWitness) (encodable : witness.Encodable) :
    RoundTrip serialize unserialize witness := by
  intro rest
  simp only [serialize, unserialize, List.append_assoc]
  rw [bind_of_ok (unserializeBytes_roundTrip _ encodable.surjectionproof _),
    bind_of_ok (unserializeBytes_roundTrip _ encodable.rangeproof _)]
  rfl

theorem unserialize_canonical : Canonical serialize unserialize := by
  intro input witness rest read
  rcases bind_eq_ok_of_canonical unserializeBytes_canonical read with ⟨surjectionproof, _, rfl, read₁⟩
  rcases bind_eq_ok_of_canonical unserializeBytes_canonical read₁ with ⟨rangeproof, _, rfl, read₂⟩
  cases read₂
  simp [serialize]

end CTxOutWitness

namespace CTxWitness

structure Encodable (witness : CTxWitness) : Prop where
  inputs : ∀ txinwit ∈ witness.vtxinwit, txinwit.Encodable
  outputs : ∀ txoutwit ∈ witness.vtxoutwit, txoutwit.Encodable

theorem unserialize_roundTrip (witness : CTxWitness) (encodable : witness.Encodable)
    (notNull : witness.IsNull = false) (rest : Bytes) :
    unserialize witness.vtxinwit.length witness.vtxoutwit.length (witness.serialize ++ rest) =
      .ok (witness, rest) := by
  simp only [serialize, unserialize, List.append_assoc]
  rw [bind_of_ok (readList_roundTrip _ _ _ (fun txinwit mem =>
      CTxInWitness.unserialize_roundTrip txinwit (encodable.inputs txinwit mem)) _),
    bind_of_ok (readList_roundTrip _ _ _ (fun txoutwit mem =>
      CTxOutWitness.unserialize_roundTrip txoutwit (encodable.outputs txoutwit mem)) _)]
  simp [notNull]

theorem unserialize_eq_ok {inputs outputs : Nat} {input rest : Bytes} {witness : CTxWitness}
    (read : unserialize inputs outputs input = .ok (witness, rest)) :
    witness.vtxinwit.length = inputs ∧ witness.vtxoutwit.length = outputs ∧
      witness.IsNull = false ∧ witness.serialize ++ rest = input := by
  rcases bind_eq_ok read with ⟨vtxinwit, _, first, read₁⟩
  rcases bind_eq_ok read₁ with ⟨vtxoutwit, _, second, read₂⟩
  rcases readList_eq_ok CTxInWitness.unserialize_canonical first with ⟨inputCount, rfl⟩
  rcases readList_eq_ok CTxOutWitness.unserialize_canonical second with ⟨outputCount, rfl⟩
  dsimp only at read₂
  split_ifs at read₂ with null
  · simp at read₂
  cases read₂
  exact ⟨inputCount, outputCount, by simpa using null, by simp [serialize]⟩

end CTxWitness

section Resize

variable {α : Type} [Inhabited α]

theorem length_resize {entries : List α} {count : Nat} (fits : entries.length ≤ count) :
    (resize entries count).length = count := by
  simp [resize, fits]

theorem resize_length (entries : List α) : resize entries entries.length = entries := by
  simp [resize]

theorem mem_resize {entries : List α} {count : Nat} {entry : α}
    (mem : entry ∈ resize entries count) : entry ∈ entries ∨ entry = default := by
  simp only [resize, List.mem_append, List.mem_replicate] at mem
  rcases mem with kept | ⟨-, rfl⟩
  · exact .inl (List.mem_of_mem_take kept)
  · exact .inr rfl

theorem all_resize (test : α → Bool) (passes : test default = true) {entries : List α} {count : Nat}
    (fits : entries.length ≤ count) : (resize entries count).all test = entries.all test := by
  simp [resize, List.take_of_length_le fits, List.all_append, passes]

theorem resize_resize {entries : List α} {count : Nat} (fits : entries.length ≤ count) :
    resize (resize entries count) count = resize entries count := by
  have same := resize_length (resize entries count)
  rwa [length_resize fits] at same

theorem getElem?_resize {entries : List α} {count : Nat} (fits : entries.length ≤ count) (i : Nat) :
    (resize entries count)[i]? =
      if i < entries.length then entries[i]? else if i < count then some default else none := by
  rw [resize, List.take_of_length_le fits]
  by_cases kept : i < entries.length
  · rw [if_pos kept, List.getElem?_append_left kept]
  · rw [if_neg kept, List.getElem?_append_right (by omega), List.getElem?_replicate]
    by_cases padded : i < count
    · rw [if_pos (by omega), if_pos padded]
    · rw [if_neg (by omega), if_neg padded]

theorem getD_resize {entries : List α} {count : Nat} (fits : entries.length ≤ count) (i : Nat) :
    (resize entries count).getD i default = entries.getD i default := by
  rw [List.getD_eq_getElem?_getD, List.getD_eq_getElem?_getD, getElem?_resize fits]
  by_cases kept : i < entries.length
  · rw [if_pos kept]
  · rw [if_neg kept, List.getElem?_eq_none (by omega)]
    split_ifs <;> rfl

end Resize

namespace CMutableTransaction

def wireWitness (tx : CMutableTransaction) : CTxWitness :=
  if tx.HasWitness then tx.paddedWitness else CTxWitness.empty

structure Encodable (tx : CMutableTransaction) : Prop where
  inputs : ∀ txin ∈ tx.vin, txin.Encodable
  outputs : ∀ txout ∈ tx.vout, txout.Encodable
  vin : Fits tx.vin
  vout : Fits tx.vout
  inputWitnesses : tx.witness.vtxinwit.length ≤ tx.vin.length
  outputWitnesses : tx.witness.vtxoutwit.length ≤ tx.vout.length
  witness : tx.witness.Encodable

variable {tx : CMutableTransaction}

theorem paddedWitness_IsNull (encodable : tx.Encodable) :
    tx.paddedWitness.IsNull = tx.witness.IsNull := by
  simp only [paddedWitness, CTxWitness.IsNull,
    all_resize _ (by decide : CTxInWitness.IsNull default = true) encodable.inputWitnesses,
    all_resize _ (by decide : CTxOutWitness.IsNull default = true) encodable.outputWitnesses]

theorem paddedWitness_encodable (encodable : tx.Encodable) : tx.paddedWitness.Encodable where
  inputs txinwit mem := by
    rcases mem_resize mem with kept | rfl
    · exact encodable.witness.inputs txinwit kept
    · exact CTxInWitness.empty_encodable
  outputs txoutwit mem := by
    rcases mem_resize mem with kept | rfl
    · exact encodable.witness.outputs txoutwit kept
    · exact CTxOutWitness.empty_encodable

end CMutableTransaction

open CMutableTransaction

theorem UnserializeTransaction_roundTrip (tx : CMutableTransaction) (encodable : tx.Encodable)
    (rest : Bytes) :
    UnserializeTransaction (SerializeTransaction true tx ++ rest) =
      .ok ({ tx with witness := tx.wireWitness }, rest) := by
  simp only [SerializeTransaction, UnserializeTransaction, Bool.true_and, List.append_assoc]
  rw [bind_of_ok (serReaddata32_roundTrip _ _), bind_of_ok (serReaddata8_roundTrip _ _),
    bind_of_ok (unserializeVector_roundTrip _ _ _ encodable.vin (fun txin mem =>
      CTxIn.unserialize_roundTrip txin (encodable.inputs txin mem)) _),
    bind_of_ok (unserializeVector_roundTrip _ _ _ encodable.vout (fun txout mem =>
      CTxOut.unserialize_roundTrip txout (encodable.outputs txout mem)) _),
    bind_of_ok (serReaddata32_roundTrip _ _)]
  cases hasWitness : tx.HasWitness
  · -- no witness on the wire, and the reader keeps the empty one
    simp [wireWitness, hasWitness, Int32.toInt32_toUInt32]
  · -- the padded witness is written after the lock time and read back whole
    have notNull : tx.paddedWitness.IsNull = false := by
      rw [paddedWitness_IsNull encodable]
      simpa [HasWitness] using hasWitness
    have read := CTxWitness.unserialize_roundTrip _ (paddedWitness_encodable encodable) notNull
    rw [show tx.paddedWitness.vtxinwit.length = tx.vin.length from
        length_resize encodable.inputWitnesses,
      show tx.paddedWitness.vtxoutwit.length = tx.vout.length from
        length_resize encodable.outputWitnesses] at read
    have witnessNotNull : tx.witness.IsNull = false := by simpa [HasWitness] using hasWitness
    simp
    rw [bind_of_ok (read rest)]
    simp [wireWitness, HasWitness, notNull, witnessNotNull]

theorem UnserializeTransaction_canonical :
    Canonical (SerializeTransaction true) UnserializeTransaction := by
  intro input tx rest read
  rcases bind_eq_ok_of_canonical serReaddata32_canonical read with ⟨nVersion, _, rfl, read₁⟩
  rcases bind_eq_ok_of_canonical serReaddata8_canonical read₁ with ⟨flags, _, rfl, read₂⟩
  obtain ⟨vin, _, rfl, read₃⟩ :=
    bind_eq_ok_of_canonical (unserializeVector_canonical CTxIn.unserialize_canonical) read₂
  obtain ⟨vout, _, rfl, read₄⟩ :=
    bind_eq_ok_of_canonical (unserializeVector_canonical CTxOut.unserialize_canonical) read₃
  rcases bind_eq_ok_of_canonical serReaddata32_canonical read₄ with ⟨nLockTime, _, rfl, read₅⟩
  dsimp only at read₅
  split_ifs at read₅ with witnessFlag
  · -- the witness follows the lock time, one entry per input and output
    rcases bind_eq_ok read₅ with ⟨witness, after, witnessRead, read₆⟩
    rcases CTxWitness.unserialize_eq_ok witnessRead with ⟨inputs, outputs, notNull, encoded⟩
    subst encoded
    simp only [HasWitness, notNull, Bool.not_false, Bool.not_true, Bool.false_eq_true, if_false,
      pure_bind] at read₆
    split_ifs at read₆ with unknown
    · simp at read₆
    simp only [pure_apply, Except.ok.injEq, Prod.mk.injEq] at read₆
    rcases read₆ with ⟨rfl, rfl⟩
    have flagOne : flags = 1 := UInt8.xor_eq_zero_iff.mp (not_not.mp unknown)
    have padded : paddedWitness ⟨vin, vout, nVersion.toInt32, nLockTime, witness⟩ = witness := by
      simp [paddedWitness, ← inputs, ← outputs, resize_length]
    subst flagOne
    simp [SerializeTransaction, HasWitness, notNull, padded]
  · -- no witness: the flags byte was zero and the witness is the empty one
    simp only [pure_bind] at read₅
    split_ifs at read₅ with unknown
    · simp at read₅
    simp only [pure_apply, Except.ok.injEq, Prod.mk.injEq] at read₅
    rcases read₅ with ⟨rfl, rfl⟩
    have flagZero : flags = 0 := by simpa using unknown
    subst flagZero
    simp [SerializeTransaction, HasWitness, CTxWitness.IsNull, CTxWitness.empty]

structure CMutableTransaction.EncodableWithoutWitness (tx : CMutableTransaction) : Prop where
  inputs : ∀ txin ∈ tx.vin, txin.Encodable
  outputs : ∀ txout ∈ tx.vout, txout.Encodable
  vin : Fits tx.vin
  vout : Fits tx.vout

theorem SerializeTransaction_false (tx : CMutableTransaction) :
    SerializeTransaction false tx = SerializeTransaction true { tx with witness := CTxWitness.empty } := by
  simp [SerializeTransaction, HasWitness, CTxWitness.IsNull, CTxWitness.empty]

theorem UnserializeTransaction_noWitness (tx : CMutableTransaction)
    (encodable : tx.EncodableWithoutWitness) (rest : Bytes) :
    UnserializeTransaction (SerializeTransaction false tx ++ rest) =
      .ok ({ tx with witness := CTxWitness.empty }, rest) := by
  have stripped : ({ tx with witness := CTxWitness.empty } : CMutableTransaction).Encodable :=
    ⟨encodable.inputs, encodable.outputs, encodable.vin, encodable.vout, Nat.zero_le _, Nat.zero_le _,
      ⟨fun _ mem => absurd mem List.not_mem_nil, fun _ mem => absurd mem List.not_mem_nil⟩⟩
  rw [SerializeTransaction_false, UnserializeTransaction_roundTrip _ stripped]
  rfl

/-- `CTransaction::GetHash`, the txid: the hash of the encoding without the witness. -/
def CMutableTransaction.GetHash (H : Hashes) (tx : CMutableTransaction) : Uint256 :=
  H.SerializeHash (SerializeTransaction false tx)

theorem GetHash_without_witness (H : Hashes) (tx : CMutableTransaction) :
    ({ tx with witness := CTxWitness.empty } : CMutableTransaction).GetHash H = tx.GetHash H := by
  rw [CMutableTransaction.GetHash, CMutableTransaction.GetHash, SerializeTransaction_false,
    SerializeTransaction_false]

/-- An input whose issuance is null but whose nonce is not: the writer leaves
the issuance out, and the reader restores the default issuance in its place. -/
theorem SerializeTransaction_loses_null_issuance_fields :
    let txin : CTxIn := ⟨⟨Uint256.zero, 0⟩, [], CTxIn.SEQUENCE_FINAL,
      ⟨⟨1 :: List.replicate 31 0, rfl⟩, Uint256.zero, .null, .null⟩, false⟩
    let tx : CMutableTransaction := ⟨[txin], [], 2, 0, CTxWitness.empty⟩
    UnserializeTransaction (SerializeTransaction true tx) =
        .ok ({ tx with vin := [{ txin with assetIssuance := CAssetIssuance.null }] }, []) ∧
      txin.assetIssuance ≠ CAssetIssuance.null :=
  ⟨rfl, by decide⟩

/-- An output number above `OUTPOINT_INDEX_MASK`, with an issuance and a peg-in: the assertion of
`CTxIn::Serialize` fails and the writer aborts. -/
theorem SerializeTransactionChecked_high_index :
    let txin : CTxIn := ⟨⟨Uint256.zero, COutPoint.OUTPOINT_INDEX_MASK + 1⟩, [], CTxIn.SEQUENCE_FINAL,
      ⟨Uint256.zero, Uint256.zero, ⟨[1, 0, 0, 0, 0, 0, 0, 0, 5]⟩, .null⟩, true⟩
    SerializeTransactionChecked true ⟨[txin], [], 2, 0, CTxWitness.empty⟩ = none := by
  decide

/-- Output number `OUTPOINT_INDEX_MASK` with an issuance and a peg-in: the writer's assertions
pass, the two flags make the index the coinbase marker, and the input reads back spending it,
its issuance left unread. -/
theorem SerializeTransaction_marker_index :
    let txin : CTxIn := ⟨⟨Uint256.zero, COutPoint.OUTPOINT_INDEX_MASK⟩, [], CTxIn.SEQUENCE_FINAL,
      ⟨Uint256.zero, Uint256.zero, ⟨[1, 0, 0, 0, 0, 0, 0, 0, 5]⟩, .null⟩, true⟩
    let tx : CMutableTransaction := ⟨[txin], [], 2, 0, CTxWitness.empty⟩
    SerializeTransactionChecked true tx = some (SerializeTransaction true tx) ∧
      UnserializeTransaction (SerializeTransaction true tx) =
        .ok ({ tx with vin := [⟨⟨Uint256.zero, COutPoint.NULL_INDEX⟩, [], CTxIn.SEQUENCE_FINAL,
            CAssetIssuance.null, false⟩] },
          List.replicate 59 0 ++ [1, 0, 0, 0, 0, 0, 0, 0, 5, 0, 0, 0, 0, 0, 0]) :=
  ⟨by decide, by decide +kernel⟩

/-- The Elements transaction encoding inverted: an encodable transaction reads
back with its witness padded (or dropped when all null), and every accepted
encoding is the encoding of what was read. -/
theorem UnserializeTransaction_SerializeTransaction :
    (∀ tx : CMutableTransaction, tx.Encodable → ∀ rest,
      UnserializeTransaction (SerializeTransaction true tx ++ rest) =
        .ok ({ tx with witness := tx.wireWitness }, rest)) ∧
    Canonical (SerializeTransaction true) UnserializeTransaction :=
  ⟨UnserializeTransaction_roundTrip, UnserializeTransaction_canonical⟩

/-- One input spending output 0 and one explicit output, with no witness. -/
theorem UnserializeTransaction_SerializeTransaction_explicit :
    let tx : CMutableTransaction :=
      ⟨[⟨⟨Uint256.zero, 0⟩, [], CTxIn.SEQUENCE_FINAL, CAssetIssuance.null, false⟩],
        [⟨⟨1 :: List.replicate 32 0⟩, ⟨[1, 0, 0, 0, 0, 0, 0, 0, 5]⟩, .null, [0x51]⟩], 2, 0,
        CTxWitness.empty⟩
    UnserializeTransaction (SerializeTransaction true tx ++ []) =
      .ok ({ tx with witness := tx.wireWitness }, []) := by
  intro tx
  have inputs : ∀ txin ∈ tx.vin, txin.Encodable := by
    intro txin mem
    rw [List.mem_singleton] at mem
    subst mem
    exact ⟨.inr ⟨by decide, by decide⟩, fun _ => rfl, ⟨rfl, rfl⟩, by decide⟩
  have outputs : ∀ txout ∈ tx.vout, txout.Encodable := by
    intro txout mem
    rw [List.mem_singleton] at mem
    subst mem
    exact ⟨⟨rfl, rfl⟩, ⟨rfl, rfl⟩, rfl, by decide⟩
  exact UnserializeTransaction_SerializeTransaction.1 tx
    ⟨inputs, outputs, by decide, by decide, by decide, by decide,
      ⟨fun _ mem => absurd mem List.not_mem_nil, fun _ mem => absurd mem List.not_mem_nil⟩⟩ []

theorem SerializeTransactionAsserts_of_encodable {tx : CMutableTransaction} (encodable : tx.Encodable) :
    SerializeTransactionAsserts tx = true := by
  simp only [SerializeTransactionAsserts, Bool.and_eq_true, decide_eq_true_eq, List.all_eq_true]
  exact ⟨⟨encodable.inputWitnesses, encodable.outputWitnesses⟩,
    fun txin mem => CTxIn.serializeAsserts_of_encodable (encodable.inputs txin mem)⟩

theorem UnserializeTransaction_asserts {input rest : Bytes} {tx : CMutableTransaction}
    (read : UnserializeTransaction input = .ok (tx, rest)) : SerializeTransactionAsserts tx = true := by
  rcases bind_eq_ok read with ⟨nVersion, _, -, read₁⟩
  rcases bind_eq_ok read₁ with ⟨flags, _, -, read₂⟩
  rcases bind_eq_ok read₂ with ⟨vin, _, vinRead, read₃⟩
  rcases bind_eq_ok read₃ with ⟨vout, _, -, read₄⟩
  rcases bind_eq_ok read₄ with ⟨nLockTime, _, -, read₅⟩
  have inputs : ∀ txin ∈ vin, txin.serializeAsserts = true :=
    unserializeVector_forall CTxIn.serializeAsserts_of_unserialize vinRead
  dsimp only at read₅
  split_ifs at read₅ with witnessFlag
  · rcases bind_eq_ok read₅ with ⟨witness, after, witnessRead, read₆⟩
    rcases CTxWitness.unserialize_eq_ok witnessRead with ⟨inLength, outLength, notNull, -⟩
    simp only [HasWitness, notNull, Bool.not_false, Bool.not_true, Bool.false_eq_true, if_false,
      pure_bind] at read₆
    split_ifs at read₆ with unknown
    · simp at read₆
    simp only [pure_apply, Except.ok.injEq, Prod.mk.injEq] at read₆
    rcases read₆ with ⟨rfl, rfl⟩
    simpa [SerializeTransactionAsserts, inLength, outLength, List.all_eq_true] using inputs
  · simp only [pure_bind] at read₅
    split_ifs at read₅ with unknown
    · simp at read₅
    simp only [pure_apply, Except.ok.injEq, Prod.mk.injEq] at read₅
    rcases read₅ with ⟨rfl, rfl⟩
    simpa [SerializeTransactionAsserts, CTxWitness.empty, List.all_eq_true] using inputs

/-- Writing a transaction back never aborts: an encodable transaction passes the writer's
assertions, and so does whatever the reader returns, written back to the bytes it read. -/
theorem SerializeTransactionChecked_never_aborts :
    (∀ (allowWitness : Bool) (tx : CMutableTransaction), tx.Encodable →
      SerializeTransactionChecked allowWitness tx = some (SerializeTransaction allowWitness tx)) ∧
    ∀ {input rest : Bytes} {tx : CMutableTransaction}, UnserializeTransaction input = .ok (tx, rest) →
      ∃ bytes, SerializeTransactionChecked true tx = some bytes ∧ bytes ++ rest = input := by
  refine ⟨fun allowWitness tx encodable => ?_, fun read => ?_⟩
  · rw [SerializeTransactionChecked, if_pos (SerializeTransactionAsserts_of_encodable encodable)]
  · refine ⟨_, by rw [SerializeTransactionChecked, if_pos (UnserializeTransaction_asserts read)], ?_⟩
    exact UnserializeTransaction_canonical _ _ _ read

/-- The transaction with no inputs and no outputs, written and read back. -/
theorem SerializeTransactionChecked_never_aborts_empty :
    SerializeTransactionChecked false ⟨[], [], 2, 0, CTxWitness.empty⟩ =
        some (SerializeTransaction false ⟨[], [], 2, 0, CTxWitness.empty⟩) ∧
      ∃ bytes, SerializeTransactionChecked true ⟨[], [], 2, 0, CTxWitness.empty⟩ = some bytes ∧
        bytes ++ [] = [2, 0, 0, 0, 0, 0, 0, 0, 0, 0, 0] :=
  ⟨SerializeTransactionChecked_never_aborts.1 false _
      ⟨fun _ mem => absurd mem List.not_mem_nil, fun _ mem => absurd mem List.not_mem_nil, by decide,
        by decide, le_rfl, le_rfl, ⟨fun _ mem => absurd mem List.not_mem_nil,
          fun _ mem => absurd mem List.not_mem_nil⟩⟩,
    SerializeTransactionChecked_never_aborts.2 rfl⟩

end Elements
