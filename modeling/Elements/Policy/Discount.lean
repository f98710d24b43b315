import Elements.Consensus.TxCheck
import Elements.Script.Sighash

/-! The weights of `consensus/validation.h`, `policy/policy.cpp` and `policy/discount.h`: the weight
of a transaction, its virtual size, and the discounted weight of ELIP-200, which takes off what
the output witnesses and the value and nonce commitments of the outputs add to the weight.

The discount never takes off more than those parts weigh, so the discounted weight stays
positive and no assertion of `GetDiscountTransactionWeight` can fail. -/

namespace Elements

open Wire CMutableTransaction

/-- `GetTransactionWeight`: the size without witness three times, and the size with it. -/
def GetTransactionWeight (tx : CTransaction) : Int :=
  (SerializeTransaction false tx).length * (WITNESS_SCALE_FACTOR - 1) + (SerializeTransaction true tx).length

def GetVirtualTransactionSize (nWeight nSigOpCost : Int) (bytes_per_sigop : Nat) : Int :=
  (max nWeight (nSigOpCost * bytes_per_sigop) + WITNESS_SCALE_FACTOR - 1).tdiv WITNESS_SCALE_FACTOR

def CMutableTransaction.GetVirtualTransactionSize (tx : CTransaction) (nSigOpCost : Int) (bytes_per_sigop : Nat) :
    Int :=
  Elements.GetVirtualTransactionSize (GetTransactionWeight tx) nSigOpCost bytes_per_sigop

/-- The body of the loop of `GetDiscountTransactionWeight` for one output, with the output witness
at its index when there is one; none is a failed `assert(witness_size >= 2)`. -/
def discountOutput (output : CTxOut) (witness : Option CTxOutWitness) (weight : Int) : Option Int := do
  let weight ← match witness with
    | some witness =>
        -- the output witness, except the two bytes of its empty proofs
        let witness_size := witness.serialize.length
        if witness_size ≥ 2 then pure (weight - (witness_size - 2 : Nat)) else none
    | none => pure weight
  let weight := if output.nValue.IsCommitment then weight - ((33 - 9) * WITNESS_SCALE_FACTOR : Nat) else weight
  let weight := if output.nNonce.IsCommitment then weight - (32 * WITNESS_SCALE_FACTOR : Nat) else weight
  pure weight

/-- The loop over the outputs, the output witnesses read alongside: output `i` is paired with
`vtxoutwit[i]` while `i < vtxoutwit.size()`. -/
def discountOutputs : List CTxOut → List CTxOutWitness → Int → Option Int
  | [], _, weight => pure weight
  | output :: vout, vtxoutwit, weight => do
      let weight ← discountOutput output vtxoutwit.head? weight
      discountOutputs vout vtxoutwit.tail weight

/-- `GetDiscountTransactionWeight(tx, nSigOpCost, bytes_per_sig_op)`; none is a failed assertion.
Sizing the transaction with its witness resizes its witness vectors when it writes them (see
`afterSerialize`), and the loop reads the output witnesses after that. -/
def GetDiscountTransactionWeight (tx : CTransaction) (nSigOpCost : Int) (bytes_per_sig_op : Nat) : Option Int := do
  let size_bytes : Int := (SerializeTransaction false tx).length * (WITNESS_SCALE_FACTOR - 1) +
    (SerializeTransaction true tx).length
  let tx := tx.afterSerialize true
  let sigop_bytes := nSigOpCost * bytes_per_sig_op
  let weight ← discountOutputs tx.vout tx.witness.vtxoutwit (max size_bytes sigop_bytes)
  if weight > 0 then pure weight else none

/-- `GetDiscountVirtualTransactionSize(tx, nSigOpCost, bytes_per_sig_op)`; none is a failed
assertion. -/
def GetDiscountVirtualTransactionSize (tx : CTransaction) (nSigOpCost : Int) (bytes_per_sig_op : Nat) :
    Option Int := do
  let weight ← GetDiscountTransactionWeight tx nSigOpCost bytes_per_sig_op
  let discountvsize := (weight + WITNESS_SCALE_FACTOR - 1).tdiv WITNESS_SCALE_FACTOR
  if discountvsize > 0 then pure discountvsize else none

/-- `CTxMemPoolEntry::GetTxSize`, with `nTxWeight` the weight of the transaction. -/
def GetTxSize (nBytesPerSigOp : Nat) (tx : CTransaction) (sigOpCost : Int) : Int :=
  Elements.GetVirtualTransactionSize (GetTransactionWeight tx) sigOpCost nBytesPerSigOp

/-- `CTxMemPoolEntry::GetDiscountTxSize`: the discounted size when the chain accepts discounted
confidential transactions. -/
def GetDiscountTxSize (acceptDiscountCT : Bool) (nBytesPerSigOp : Nat) (tx : CTransaction) (sigOpCost : Int) :
    Option Int :=
  if acceptDiscountCT then GetDiscountVirtualTransactionSize tx sigOpCost nBytesPerSigOp
  else pure (Elements.GetVirtualTransactionSize (GetTransactionWeight tx) sigOpCost nBytesPerSigOp)

theorem one_le_length_writeLength {α : Type} (items : List α) : 1 ≤ (writeLength items).length := by
  rw [writeLength, length_WriteCompactSize, GetSizeOfCompactSize]
  split_ifs <;> omega

theorem one_le_length_serializeBytes (v : Bytes) : 1 ≤ (serializeBytes v).length := by
  rw [serializeBytes, List.length_append]
  have := one_le_length_writeLength v
  omega

theorem CTxOutWitness.two_le_length_serialize (witness : CTxOutWitness) : 2 ≤ witness.serialize.length := by
  rw [CTxOutWitness.serialize, List.length_append]
  have surjection := one_le_length_serializeBytes witness.vchSurjectionproof
  have range := one_le_length_serializeBytes witness.vchRangeproof
  omega

theorem CTxOutWitness.length_serialize_of_IsNull {witness : CTxOutWitness} (null : witness.IsNull = true) :
    witness.serialize.length = 2 := by
  obtain ⟨surjection, range⟩ := witness
  simp only [CTxOutWitness.IsNull, Bool.and_eq_true, List.isEmpty_iff] at null
  obtain ⟨rfl, rfl⟩ := null
  rfl

namespace CConfidentialCommitment

variable {E : Nat} {A B : UInt8}

theorem length_serialize (c : CConfidentialCommitment E A B) :
    c.serialize.length = 1 + if c.vchCommitment.length > 1 then c.vchCommitment.length - 1 else 0 := by
  rw [serialize, List.length_append, serWritedata8, List.length_singleton]
  split_ifs <;> simp

theorem length_serialize_of_IsCommitment {c : CConfidentialCommitment E A B} (commitment : c.IsCommitment = true) :
    c.serialize.length = 33 := by
  simp only [IsCommitment, Bool.and_eq_true, beq_iff_eq, nCommittedSize] at commitment
  rw [length_serialize, if_pos (by omega), commitment.1]

end CConfidentialCommitment

def witnessCut : Option CTxOutWitness → Int
  | some witness => witness.serialize.length - 2
  | none => 0

def commitmentCut (output : CTxOut) : Int :=
  (if output.nValue.IsCommitment then 96 else 0) + if output.nNonce.IsCommitment then 128 else 0

theorem witnessCut_nonneg (witness : Option CTxOutWitness) : 0 ≤ witnessCut witness := by
  cases witness with
  | none => exact le_rfl
  | some witness =>
      have := witness.two_le_length_serialize
      simp only [witnessCut]
      omega

theorem commitmentCut_nonneg (output : CTxOut) : 0 ≤ commitmentCut output := by
  unfold commitmentCut
  split_ifs <;> omega

theorem cut_le_of_IsCommitment {E : Nat} {A B : UInt8} (c : CConfidentialCommitment E A B) (cut : Int)
    (small : cut ≤ 132) (nonneg : 0 ≤ cut) : (if c.IsCommitment then cut else 0) ≤ 4 * c.serialize.length := by
  split_ifs with committed
  · rw [CConfidentialCommitment.length_serialize_of_IsCommitment committed]
    omega
  · omega

theorem commitmentCut_le (output : CTxOut) : commitmentCut output ≤ 4 * output.serialize.length := by
  have value := cut_le_of_IsCommitment output.nValue 96 (by norm_num) (by norm_num)
  have nonce := cut_le_of_IsCommitment output.nNonce 128 (by norm_num) (by norm_num)
  simp only [CTxOut.serialize, List.length_append, commitmentCut]
  push_cast
  omega

theorem discountOutput_eq (output : CTxOut) (witness : Option CTxOutWitness) (weight : Int) :
    discountOutput output witness weight = some (weight - witnessCut witness - commitmentCut output) := by
  cases witness with
  | none =>
      simp only [discountOutput, witnessCut, commitmentCut, WITNESS_SCALE_FACTOR, pure_bind]
      split_ifs <;> (rw [Option.pure_def, Option.some.injEq]; omega)
  | some witness =>
      have atLeastTwo := witness.two_le_length_serialize
      simp only [discountOutput, witnessCut, commitmentCut, WITNESS_SCALE_FACTOR, if_pos atLeastTwo, pure_bind]
      split_ifs <;> (rw [Option.pure_def, Option.some.injEq]; omega)

theorem discountOutputs_eq (vout : List CTxOut) (vtxoutwit : List CTxOutWitness) (weight : Int) :
    discountOutputs vout vtxoutwit weight =
      some (weight - ((vtxoutwit.take vout.length).map (witnessCut ∘ some)).sum - (vout.map commitmentCut).sum) := by
  induction vout generalizing vtxoutwit weight with
  | nil => simp [discountOutputs]
  | cons output vout ih =>
      rw [discountOutputs, discountOutput_eq, Option.bind_eq_bind, Option.bind_some, ih]
      cases vtxoutwit with
      | nil => simp [witnessCut]; ring
      | cons witness vtxoutwit => simp; ring

theorem length_SerializeTransaction_true (tx : CTransaction) :
    (SerializeTransaction true tx).length =
      (SerializeTransaction false tx).length + if tx.HasWitness then tx.paddedWitness.serialize.length else 0 := by
  cases has : tx.HasWitness
  · simp [SerializeTransaction, has, serWritedata8]
  · simp [SerializeTransaction, has, serWritedata8]
    omega

theorem sum_commitmentCut_le (vout : List CTxOut) :
    (vout.map commitmentCut).sum ≤ 4 * ((vout.map fun output => output.serialize.length).sum : Nat) := by
  induction vout with
  | nil => simp
  | cons output vout ih =>
      have first := commitmentCut_le output
      simp only [List.map_cons, List.sum_cons, Nat.cast_add]
      omega

theorem sum_commitmentCut_add_le (tx : CTransaction) :
    (tx.vout.map commitmentCut).sum + 44 ≤ 4 * (SerializeTransaction false tx).length := by
  have outputs := sum_commitmentCut_le tx.vout
  have inputsLength := one_le_length_writeLength tx.vin
  have outputsLength := one_le_length_writeLength tx.vout
  rw [length_SerializeTransaction_false, length_serializeVector, length_serializeVector]
  simp only [Nat.cast_add, Nat.cast_ofNat]
  omega

theorem sum_witnessCut_le (vtxoutwit : List CTxOutWitness) (n : Nat) :
    ((vtxoutwit.take n).map (witnessCut ∘ some)).sum ≤ (vtxoutwit.flatMap CTxOutWitness.serialize).length := by
  induction vtxoutwit generalizing n with
  | nil => simp
  | cons witness vtxoutwit ih =>
      cases n with
      | zero =>
          rw [List.take_zero, List.map_nil, List.sum_nil]
          exact Nat.cast_nonneg _
      | succ n =>
          have rest := ih n
          have first := witness.two_le_length_serialize
          simp only [List.take_succ_cons, List.map_cons, List.sum_cons, List.flatMap_cons, List.length_append,
            Function.comp_apply, witnessCut, Nat.cast_add]
          omega

theorem sum_witnessCut_of_IsNull {vtxoutwit : List CTxOutWitness} (null : vtxoutwit.all CTxOutWitness.IsNull = true)
    (n : Nat) : ((vtxoutwit.take n).map (witnessCut ∘ some)).sum = 0 := by
  induction vtxoutwit generalizing n with
  | nil => simp
  | cons witness vtxoutwit ih =>
      rw [List.all_cons, Bool.and_eq_true] at null
      cases n with
      | zero => simp
      | succ n =>
          simp only [List.take_succ_cons, List.map_cons, List.sum_cons, Function.comp_apply, witnessCut,
            CTxOutWitness.length_serialize_of_IsNull null.1, ih null.2]
          rfl

theorem vout_afterSerialize (tx : CTransaction) (allowWitness : Bool) :
    (tx.afterSerialize allowWitness).vout = tx.vout := by
  unfold afterSerialize
  split_ifs <;> rfl

theorem sum_witnessCut_afterSerialize (tx : CTransaction) :
    (((tx.afterSerialize true).witness.vtxoutwit.take tx.vout.length).map (witnessCut ∘ some)).sum ≤
      if tx.HasWitness then tx.paddedWitness.serialize.length else 0 := by
  cases has : tx.HasWitness
  · -- no witness is written, and every output witness is null
    have null : tx.witness.IsNull = true := by simpa [HasWitness] using has
    rw [CTxWitness.IsNull, Bool.and_eq_true] at null
    simp only [afterSerialize, has, Bool.and_false, Bool.false_eq_true, if_false]
    rw [sum_witnessCut_of_IsNull null.2]
    rfl
  · simp only [afterSerialize, has, Bool.and_self, if_true]
    calc _ ≤ ((tx.paddedWitness.vtxoutwit.flatMap CTxOutWitness.serialize).length : Int) := sum_witnessCut_le _ _
      _ ≤ (tx.paddedWitness.serialize.length : Int) := by
        rw [CTxWitness.serialize, List.length_append]
        omega

/-- Everything the loop of `GetDiscountTransactionWeight` takes off. -/
def outputsDiscount (tx : CTransaction) : Int :=
  (((tx.afterSerialize true).witness.vtxoutwit.take tx.vout.length).map (witnessCut ∘ some)).sum +
    (tx.vout.map commitmentCut).sum

theorem outputsDiscount_nonneg (tx : CTransaction) : 0 ≤ outputsDiscount tx := by
  have witnesses : 0 ≤ (((tx.afterSerialize true).witness.vtxoutwit.take tx.vout.length).map
      (witnessCut ∘ some)).sum := by
    apply List.sum_nonneg
    simp only [List.mem_map]
    rintro _ ⟨witness, _, rfl⟩
    exact witnessCut_nonneg _
  have commitments : 0 ≤ (tx.vout.map commitmentCut).sum := by
    apply List.sum_nonneg
    simp only [List.mem_map]
    rintro _ ⟨output, _, rfl⟩
    exact commitmentCut_nonneg _
  unfold outputsDiscount
  omega

theorem outputsDiscount_add_le (tx : CTransaction) : outputsDiscount tx + 44 ≤ GetTransactionWeight tx := by
  have witnesses := sum_witnessCut_afterSerialize tx
  have commitments := sum_commitmentCut_add_le tx
  have whole := length_SerializeTransaction_true tx
  unfold outputsDiscount GetTransactionWeight WITNESS_SCALE_FACTOR
  split_ifs at witnesses whole <;> omega

theorem GetDiscountTransactionWeight_eq (tx : CTransaction) (nSigOpCost : Int) (bytes_per_sig_op : Nat) :
    GetDiscountTransactionWeight tx nSigOpCost bytes_per_sig_op =
      some (max (GetTransactionWeight tx) (nSigOpCost * bytes_per_sig_op) - outputsDiscount tx) := by
  have left := outputsDiscount_add_le tx
  have atLeast := le_max_left (GetTransactionWeight tx) (nSigOpCost * bytes_per_sig_op)
  have positive : max (GetTransactionWeight tx) (nSigOpCost * bytes_per_sig_op) - outputsDiscount tx > 0 := by
    omega
  simp only [GetDiscountTransactionWeight, discountOutputs_eq, vout_afterSerialize, Option.bind_eq_bind,
    Option.bind_some]
  unfold GetTransactionWeight at positive ⊢
  rw [sub_sub, ← outputsDiscount, if_pos positive]
  rfl

theorem roundUp_le {a b : Int} (nonneg : 0 ≤ a) (le : a ≤ b) :
    (a + WITNESS_SCALE_FACTOR - 1).tdiv WITNESS_SCALE_FACTOR ≤ (b + WITNESS_SCALE_FACTOR - 1).tdiv WITNESS_SCALE_FACTOR := by
  unfold WITNESS_SCALE_FACTOR
  rw [Int.tdiv_eq_ediv_of_nonneg (by omega), Int.tdiv_eq_ediv_of_nonneg (by omega)]
  exact Int.ediv_le_ediv (by norm_num) (by omega)

theorem roundUp_pos {a : Int} (positive : 0 < a) : 0 < (a + WITNESS_SCALE_FACTOR - 1).tdiv WITNESS_SCALE_FACTOR := by
  unfold WITNESS_SCALE_FACTOR
  rw [Int.tdiv_eq_ediv_of_nonneg (by omega)]
  omega

theorem GetDiscountVirtualTransactionSize_eq (tx : CTransaction) (nSigOpCost : Int) (bytes_per_sig_op : Nat) :
    GetDiscountVirtualTransactionSize tx nSigOpCost bytes_per_sig_op =
      some ((max (GetTransactionWeight tx) (nSigOpCost * bytes_per_sig_op) - outputsDiscount tx +
        WITNESS_SCALE_FACTOR - 1).tdiv WITNESS_SCALE_FACTOR) := by
  have left := outputsDiscount_add_le tx
  have atLeast := le_max_left (GetTransactionWeight tx) (nSigOpCost * bytes_per_sig_op)
  have positive := roundUp_pos (a := max (GetTransactionWeight tx) (nSigOpCost * bytes_per_sig_op) -
    outputsDiscount tx) (by omega)
  rw [GetDiscountVirtualTransactionSize, GetDiscountTransactionWeight_eq, Option.bind_eq_bind, Option.bind_some,
    if_pos positive]
  rfl

theorem discountWeight_bounds (tx : CTransaction) (nSigOpCost : Int) (bytes_per_sig_op : Nat) :
    (∃ weight, GetDiscountTransactionWeight tx nSigOpCost bytes_per_sig_op = some weight ∧ 1 ≤ weight ∧
      weight ≤ max (GetTransactionWeight tx) (nSigOpCost * bytes_per_sig_op)) ∧
    ∃ vsize, GetDiscountVirtualTransactionSize tx nSigOpCost bytes_per_sig_op = some vsize ∧
      vsize ≤ tx.GetVirtualTransactionSize nSigOpCost bytes_per_sig_op := by
  have nonneg := outputsDiscount_nonneg tx
  have left := outputsDiscount_add_le tx
  have atLeast := le_max_left (GetTransactionWeight tx) (nSigOpCost * bytes_per_sig_op)
  refine ⟨⟨_, GetDiscountTransactionWeight_eq tx nSigOpCost bytes_per_sig_op, by omega, by omega⟩,
    _, GetDiscountVirtualTransactionSize_eq tx nSigOpCost bytes_per_sig_op, ?_⟩
  exact roundUp_le (by omega) (by omega)

end Elements
