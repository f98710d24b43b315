import Mathlib.Data.List.Nodup
import Elements.Consensus.TxCheck
import Elements.Control.Guard
import Elements.ConfidentialValidation

/-! `Consensus::CheckTxInputs` of `consensus/tx_verify.cpp`, with what it reads:
per-asset amounts (`CAmountMap` of `asset.h`), the coins it spends
(`coins.h`), and the fee checks of `confidential_validation.cpp`.

`CheckTxInputs` adds up the explicit amounts of the coins a transaction
spends into one `CAmount`, whatever their assets. Amounts are unbounded
integers here, so that a sum the source would overflow is a value outside
`Int64Range` rather than undefined behaviour.

The peg-in checks it calls (`IsValidPeginWitness` against the fedpeg scripts,
the claim's genesis hash `uint256(stack[2])`, `GetPeginOutputFromWitness`) and
`VerifyAmounts` are parameters. -/

namespace Elements

open Wire

/-- `CAmountMap`, a `std::map<CAsset, CAmount>`, as its entries. -/
structure CAmountMap where
  entries : List (CAsset × CAmount)

namespace CAmountMap

def empty : CAmountMap := ⟨[]⟩

/-- `m[asset]`, zero for an asset without an entry. -/
def get (m : CAmountMap) (asset : CAsset) : CAmount :=
  ((m.entries.find? (·.1 == asset)).map (·.2)).getD 0

/-- `m[asset] = f(m[asset])`: the entry is made with zero first when missing. -/
def modify (m : CAmountMap) (asset : CAsset) (f : CAmount → CAmount) : CAmountMap :=
  if m.entries.any (·.1 == asset) then
    ⟨m.entries.map fun entry => if entry.1 == asset then (entry.1, f entry.2) else entry⟩
  else ⟨m.entries ++ [(asset, f 0)]⟩

/-- `a += b`: every entry of `b` added to `a`. -/
def add (a b : CAmountMap) : CAmountMap :=
  b.entries.foldl (fun m entry => m.modify entry.1 (· + entry.2)) a

/-- `MoneyRange(mapValue)`: with the null pegged asset, every entry is within `MAX_MONEY`. -/
def MoneyRange (m : CAmountMap) : Bool := m.entries.all fun entry => Elements.MoneyRange entry.2

end CAmountMap

/-- `CTxOut::IsNull`; compatibility mode ignores the asset and the nonce. -/
def CTxOut.IsNull (g_con_elementsmode : Bool) (txout : CTxOut) : Bool :=
  if !g_con_elementsmode then txout.nValue.IsNull && txout.scriptPubKey.isEmpty
  else txout.nAsset.IsNull && txout.nValue.IsNull && txout.nNonce.IsNull && txout.scriptPubKey.isEmpty

/-- `Coin`: an output, the height of the block that made it and whether that
was a coinbase. -/
structure Coin where
  out : CTxOut
  nHeight : Nat
  fCoinBase : Bool

namespace Coin

/-- `coinEmpty`, what `AccessCoin` returns for an outpoint without a coin. -/
def empty : Coin := ⟨⟨.null, .null, .null, []⟩, 0, false⟩

def IsSpent (g_con_elementsmode : Bool) (coin : Coin) : Bool := coin.out.IsNull g_con_elementsmode

end Coin

/-- What `CheckTxInputs` reads of a `CCoinsViewCache`: the coin at each
outpoint and the spent peg-in claims. -/
structure CCoinsViewCache where
  AccessCoin : COutPoint → Coin
  IsPeginSpent : Uint256 × COutPoint → Bool

namespace CCoinsViewCache

def HaveCoin (g_con_elementsmode : Bool) (inputs : CCoinsViewCache) (outpoint : COutPoint) : Bool :=
  !(inputs.AccessCoin outpoint).IsSpent g_con_elementsmode

def HaveInputs (g_con_elementsmode : Bool) (inputs : CCoinsViewCache) (tx : CTransaction) : Bool :=
  tx.IsCoinBase || tx.vin.all fun txin => txin.isPegin || inputs.HaveCoin g_con_elementsmode txin.prevout

end CCoinsViewCache

/-- The peg-in checks `CheckTxInputs` calls, with the fedpeg scripts they are
checked against. -/
structure PeginChecks where
  IsValidPeginWitness : CScriptWitness → COutPoint → Bool
  genesisHash : CScriptWitness → Uint256
  GetPeginOutputFromWitness : CScriptWitness → CTxOut

def COINBASE_MATURITY : Int := 100

/-- What a spent coin adds to `nValueIn`: its amount when explicit. -/
def CTxOut.explicitAmount (txout : CTxOut) : CAmount :=
  if txout.nValue.IsExplicit then txout.nValue.GetAmount else 0

/-- The locals of the input loop of `CheckTxInputs`. -/
structure InputTally where
  spent_inputs : List CTxOut
  nValueIn : CAmount
  setPeginsSpent : List (Uint256 × COutPoint)

section CheckTxInputs

variable (pegins : PeginChecks) (inputs : CCoinsViewCache) (nSpendHeight : Int) (tx : CTransaction)

/-- One turn of the input loop of `CheckTxInputs`, for input `i`. A peg-in
adds the claimed amount before it checks its range; a coin adds its amount
when explicit, of whatever asset. -/
def tallyInput (i : Nat) (txin : CTxIn) (tally : InputTally) : Except String InputTally :=
  if txin.isPegin then
    match tx.witness.vtxinwit[i]? with
    | none => throw "bad-pegin-witness"
    | some txinwit =>
      if !pegins.IsValidPeginWitness txinwit.peginWitness txin.prevout then throw "bad-pegin-witness"
      else
        let pegin := (pegins.genesisHash txinwit.peginWitness, txin.prevout)
        if inputs.IsPeginSpent pegin then throw "bad-txns-double-pegin"
        else if pegin ∈ tally.setPeginsSpent then throw "bad-txns-double-pegin-in-obj"
        else
          let out := pegins.GetPeginOutputFromWitness txinwit.peginWitness
          let nValueIn := tally.nValueIn + out.nValue.GetAmount
          if !MoneyRange out.nValue.GetAmount then throw "bad-txns-inputvalues-outofrange"
          else pure ⟨tally.spent_inputs ++ [out], nValueIn, tally.setPeginsSpent ++ [pegin]⟩
  else
    -- `HaveInputs` has passed, so the coin is not spent
    let coin := inputs.AccessCoin txin.prevout
    if coin.fCoinBase && nSpendHeight - coin.nHeight < COINBASE_MATURITY then
      throw "bad-txns-premature-spend-of-coinbase"
    else
      let nValueIn :=
        if coin.out.nValue.IsExplicit then tally.nValueIn + coin.out.nValue.GetAmount else tally.nValueIn
      pure ⟨tally.spent_inputs ++ [coin.out], nValueIn, tally.setPeginsSpent⟩

/-- The input loop of `CheckTxInputs`, from input `i` on. -/
def tallyInputs : Nat → List CTxIn → InputTally → Except String InputTally
  | _, [], tally => pure tally
  | i, txin :: vin, tally => do
    let tally ← tallyInput pegins inputs nSpendHeight tx i txin tally
    tallyInputs (i + 1) vin tally

theorem exists_crossing {α : Type} (amount : α → Int) (bound : Int) (items : List α)
    (nonneg : ∀ item ∈ items, 0 ≤ amount item) (positive : 0 < bound)
    (reached : bound ≤ (items.map amount).sum) :
    ∃ before item after, items = before ++ item :: after ∧ 0 ≤ (before.map amount).sum ∧
      (before.map amount).sum < bound ∧ bound ≤ (before.map amount).sum + amount item := by
  induction items generalizing bound with
  | nil => simp at reached; omega
  | cons first items ih =>
    by_cases early : bound ≤ amount first
    · exact ⟨[], first, items, rfl, by simp, by simpa using positive, by simpa using early⟩
    · -- the crossing is further on, for what remains of the bound
      have rest : bound - amount first ≤ (items.map amount).sum := by
        simp only [List.map_cons, List.sum_cons] at reached
        omega
      obtain ⟨before, item, after, split, nonnegBefore, below, above⟩ :=
        ih (bound - amount first) (fun item mem => nonneg item (List.mem_cons_of_mem _ mem)) (by omega) rest
      have head := nonneg first List.mem_cons_self
      refine ⟨first :: before, item, after, by rw [split]; rfl, ?_, ?_, ?_⟩ <;>
        simp only [List.map_cons, List.sum_cons] <;> omega

/-- An input the loop counts as a coin: no peg-in, and no coinbase output
younger than `COINBASE_MATURITY`. -/
def SpendsCoin (txin : CTxIn) : Prop :=
  txin.isPegin = false ∧
    ((inputs.AccessCoin txin.prevout).fCoinBase &&
      decide (nSpendHeight - (inputs.AccessCoin txin.prevout).nHeight < COINBASE_MATURITY)) = false

def coinAmount (txin : CTxIn) : CAmount := (inputs.AccessCoin txin.prevout).out.explicitAmount

theorem tallyInput_of_SpendsCoin (i : Nat) {txin : CTxIn} (coin : SpendsCoin inputs nSpendHeight txin)
    (tally : InputTally) :
    tallyInput pegins inputs nSpendHeight tx i txin tally =
      .ok ⟨tally.spent_inputs ++ [(inputs.AccessCoin txin.prevout).out],
        tally.nValueIn + coinAmount inputs txin, tally.setPeginsSpent⟩ := by
  obtain ⟨plain, mature⟩ := coin
  simp only [tallyInput, plain, mature, Bool.false_eq_true, ↓reduceIte, coinAmount, CTxOut.explicitAmount]
  split <;> simp only [Guard.pure_eq_ok, add_zero]

theorem tallyInputs_of_SpendsCoin (i : Nat) (vin : List CTxIn) (tally : InputTally)
    (coins : ∀ txin ∈ vin, SpendsCoin inputs nSpendHeight txin) :
    tallyInputs pegins inputs nSpendHeight tx i vin tally =
      .ok ⟨tally.spent_inputs ++ vin.map (fun txin => (inputs.AccessCoin txin.prevout).out),
        tally.nValueIn + (vin.map (coinAmount inputs)).sum, tally.setPeginsSpent⟩ := by
  induction vin generalizing i tally with
  | nil => simp [tallyInputs]
  | cons txin vin ih =>
    have first := tallyInput_of_SpendsCoin pegins inputs nSpendHeight tx i (coins txin List.mem_cons_self) tally
    have rest := fun tally => ih (i + 1) tally fun txin mem => coins txin (List.mem_cons_of_mem _ mem)
    rw [tallyInputs, first, Guard.ok_bind, rest]
    simp [add_assoc]

end CheckTxInputs

/-- The input loop of `CheckTxInputs` adds the explicit amounts of coins of
every asset into one `int64_t` and checks no running total. Coins that each
hold at most `MAX_MONEY` but together `2^63` or more make one
`nValueIn += coin.out.nValue.GetAmount()` add an amount in range to a total in
range and leave the range: a signed overflow. -/
theorem tallyInputs_nValueIn_overflows (pegins : PeginChecks) (inputs : CCoinsViewCache)
    (nSpendHeight : Int) (tx : CTransaction) (setPeginsSpent : List (Uint256 × COutPoint))
    (coins : ∀ txin ∈ tx.vin, SpendsCoin inputs nSpendHeight txin)
    (amounts : ∀ txin ∈ tx.vin, MoneyRange (coinAmount inputs txin))
    (large : 2 ^ 63 ≤ (tx.vin.map (coinAmount inputs)).sum) :
    ∃ before txin after, tx.vin = before ++ txin :: after ∧ ∃ nValueIn,
      (tallyInputs pegins inputs nSpendHeight tx 0 before ⟨[], 0, setPeginsSpent⟩).map (·.nValueIn) =
        .ok nValueIn ∧
      (tallyInputs pegins inputs nSpendHeight tx 0 (before ++ [txin]) ⟨[], 0, setPeginsSpent⟩).map
        (·.nValueIn) = .ok (nValueIn + coinAmount inputs txin) ∧
      Int64Range nValueIn ∧ Int64Range (coinAmount inputs txin) ∧
      ¬Int64Range (nValueIn + coinAmount inputs txin) := by
  have inRange : ∀ txin ∈ tx.vin, 0 ≤ coinAmount inputs txin ∧ coinAmount inputs txin ≤ MAX_MONEY := by
    intro txin mem
    simpa [MoneyRange] using amounts txin mem
  obtain ⟨before, txin, after, split, nonnegBefore, below, above⟩ :=
    exists_crossing (coinAmount inputs) (2 ^ 63) tx.vin (fun txin mem => (inRange txin mem).1) (by decide)
      large
  have spent : ∀ t ∈ before ++ [txin], SpendsCoin inputs nSpendHeight t := by
    intro t mem
    apply coins t
    rw [split]
    simp only [List.mem_append, List.mem_singleton] at mem
    rcases mem with early | rfl
    · simp [early]
    · simp
  have prefixCoins : ∀ t ∈ before, SpendsCoin inputs nSpendHeight t :=
    fun t mem => spent t (List.mem_append_left _ mem)
  have amount := inRange txin (by rw [split]; simp)
  have maxMoney : MAX_MONEY < 2 ^ 63 := by decide
  refine ⟨before, txin, after, split, (before.map (coinAmount inputs)).sum, ?_, ?_, ?_⟩
  · rw [tallyInputs_of_SpendsCoin pegins inputs nSpendHeight tx 0 before _ prefixCoins]
    simp [Except.map]
  · rw [tallyInputs_of_SpendsCoin pegins inputs nSpendHeight tx 0 _ _ spent]
    simp [Except.map]
  · -- `omega` reads the amounts as integers once `CAmount` is unfolded
    unfold Int64Range CAmount at *
    omega

/-- Coins of `MAX_MONEY` each, paid by a transaction `CheckTransaction`
accepts, spent 4393 at a time by a transaction it also accepts, in both
modes: the loop overflows whatever the peg-in checks and the spend height. -/
theorem tallyInputs_nValueIn_overflows_max_money_coins :
    ∃ (tx mint : CTransaction) (inputs : CCoinsViewCache),
      CheckTransaction true tx = .ok () ∧ CheckTransaction false tx = .ok () ∧
      CheckTransaction true mint = .ok () ∧ CheckTransaction false mint = .ok () ∧
      inputs.HaveInputs true tx = true ∧ inputs.HaveInputs false tx = true ∧
      (∀ txin ∈ tx.vin, (inputs.AccessCoin txin.prevout).out ∈ mint.vout) ∧
      ∀ (pegins : PeginChecks) (nSpendHeight : Int) (setPeginsSpent : List (Uint256 × COutPoint)),
        ∃ before txin after, tx.vin = before ++ txin :: after ∧ ∃ nValueIn,
          (tallyInputs pegins inputs nSpendHeight tx 0 before ⟨[], 0, setPeginsSpent⟩).map (·.nValueIn) =
            .ok nValueIn ∧
          (tallyInputs pegins inputs nSpendHeight tx 0 (before ++ [txin]) ⟨[], 0, setPeginsSpent⟩).map
            (·.nValueIn) = .ok (nValueIn + coinAmount inputs txin) ∧
          Int64Range nValueIn ∧ Int64Range (coinAmount inputs txin) ∧
          ¬Int64Range (nValueIn + coinAmount inputs txin) := by
  -- every coin pays `MAX_MONEY` of one asset; input `i` spends output 0 of transaction `i`
  let coinOut : CTxOut :=
    ⟨⟨1 :: List.replicate 32 0⟩, ⟨[1, 0x00, 0x07, 0x75, 0xF0, 0x5A, 0x07, 0x40, 0x00]⟩, .null, [0x51]⟩
  let spendCoin : Nat → CTxIn := fun i =>
    ⟨⟨⟨writeLE 32 i, writeLE_length 32 i⟩, 0⟩, [], CTxIn.SEQUENCE_FINAL, CAssetIssuance.null, false⟩
  let tx : CTransaction := ⟨(List.range 4393).map spendCoin, [coinOut], 2, 0, CTxWitness.empty⟩
  let mint : CTransaction := ⟨[spendCoin 4393], [coinOut], 2, 0, CTxWitness.empty⟩
  let inputs : CCoinsViewCache := ⟨fun _ => ⟨coinOut, 1, false⟩, fun _ => false⟩
  have inputSize : ∀ i, (spendCoin i).serialize.length = 41 := by
    intro i
    rw [CTxIn.length_serialize _ (show CAssetIssuance.null.IsNull = true by decide +kernel)]
    rfl
  have size : (SerializeTransaction false tx).length = 180171 := by
    rw [length_SerializeTransaction_false, length_serializeVector, length_serializeVector]
    simp only [tx, List.map_map, Function.comp_def, inputSize, List.map_const', List.sum_replicate,
      List.length_map, List.length_range, writeLength]
    decide +kernel
  have compatInputSize : ∀ i, (spendCoin i).serializeCompat.length = 41 := by
    intro i
    rw [CTxIn.length_serializeCompat]
    rfl
  have compatSize : (serializeTransactionCompat tx).length = 180135 := by
    rw [length_serializeTransactionCompat, length_serializeVector, length_serializeVector]
    simp only [tx, List.map_map, Function.comp_def, compatInputSize, List.map_const', List.sum_replicate,
      List.length_map, List.length_range, writeLength]
    decide +kernel
  have distinct : (tx.vin.map (·.prevout)).Nodup := by
    simp only [tx, List.map_map]
    refine List.Nodup.map_on ?_ List.nodup_range
    intro i iMem j jMem same
    have hashes : writeLE 32 i = writeLE 32 j := congrArg (fun outpoint => outpoint.hash.data) same
    have iFits : i < 256 ^ 32 := by simp at iMem; omega
    have jFits : j < 256 ^ 32 := by simp at jMem; omega
    rw [← valueLE_writeLE 32 i iFits, hashes, valueLE_writeLE 32 j jFits]
  have checked : ∀ g, CheckTransaction g tx = .ok () := by
    intro g
    rw [CheckTransaction_eq_ok_iff_of_spend g tx (by simp [tx, CMutableTransaction.IsCoinBase])]
    refine ⟨by simp [tx], by simp [tx], ?_, by decide +kernel, distinct, ?_⟩
    · -- Core's layout outside Elements mode, the Elements one inside it
      cases g
      · rw [GetSerializeSizeNoWitness, if_neg Bool.false_ne_true, compatSize]
        decide
      · rw [GetSerializeSizeNoWitness, if_pos rfl, size]
        decide
    · simp [tx, spendCoin, COutPoint.IsNull, COutPoint.NULL_INDEX]
  have minted : ∀ g, CheckTransaction g mint = .ok () := by
    intro g
    cases g <;> decide +kernel
  have present : ∀ g, inputs.HaveInputs g tx = true := by
    intro g
    have unspent : coinOut.IsNull g = false := by cases g <;> decide +kernel
    simp [CCoinsViewCache.HaveInputs, CCoinsViewCache.HaveCoin, Coin.IsSpent, inputs, unspent]
  have amount : coinOut.explicitAmount = MAX_MONEY := by decide +kernel
  refine ⟨tx, mint, inputs, checked true, checked false, minted true, minted false, present true,
    present false, fun _ _ => List.mem_singleton_self _, fun pegins nSpendHeight setPeginsSpent => ?_⟩
  refine tallyInputs_nValueIn_overflows pegins inputs nSpendHeight tx setPeginsSpent ?_ ?_ ?_
  · intro txin mem
    simp only [tx] at mem
    obtain ⟨i, -, spent⟩ := List.mem_map.mp mem
    rw [← spent]
    exact ⟨rfl, rfl⟩
  · intro txin _
    show MoneyRange coinOut.explicitAmount = true
    rw [amount]
    decide
  · have constant : coinAmount inputs = fun _ => MAX_MONEY := funext fun _ => amount
    rw [constant, List.map_const', List.sum_replicate]
    simp only [tx, List.length_map, List.length_range]
    decide

section Fees

variable (g_con_elementsmode : Bool)

/-- `HasValidFee`: every fee output and every running per-asset fee total is
within `MAX_MONEY`, and no fee is zero. -/
def hasValidFees : List CTxOut → CAmountMap → Bool
  | [], _ => true
  | txout :: vout, totalFee =>
    if txout.IsFee g_con_elementsmode then
      let fee := txout.nValue.GetAmount
      if fee = 0 || !MoneyRange fee then false
      else
        let totalFee := totalFee.modify txout.nAsset.GetAsset (· + fee)
        if !totalFee.MoneyRange then false else hasValidFees vout totalFee
    else hasValidFees vout totalFee

def HasValidFee (tx : CTransaction) : Bool := hasValidFees g_con_elementsmode tx.vout .empty

def GetFeeMap (tx : CTransaction) : CAmountMap :=
  tx.vout.foldl (fun fee txout =>
    if txout.IsFee g_con_elementsmode then fee.modify txout.nAsset.GetAsset (· + txout.nValue.GetAmount)
    else fee) .empty

/-- `CTransaction::GetValueOutMap`: the explicit amounts per asset; it throws
when an amount or a running total leaves `MAX_MONEY`. -/
def GetValueOutMap (tx : CTransaction) : Except String CAmountMap :=
  tx.vout.foldlM (fun values txout =>
    if txout.nValue.IsExplicit && txout.nAsset.IsExplicit then
      let asset := txout.nAsset.GetAsset
      let amount := txout.nValue.GetAmount
      if !MoneyRange amount || !MoneyRange (values.get asset + amount) then
        throw "GetValueOutMap: value out of range"
      else pure (values.add ⟨[(asset, amount)]⟩)
    else pure values) .empty

/-- The output loop of `VerifyCoinbaseAmount`, from what remains of the fees. -/
def subtractCoinbaseOutputs : List CTxOut → CAmountMap → Option CAmountMap
  | [], remaining => some remaining
  | out :: vout, remaining =>
    if !out.nValue.IsExplicit || !out.nAsset.IsExplicit then none
    else if !MoneyRange out.nValue.GetAmount then none
    else if g_con_elementsmode && out.nValue.GetAmount = 0 && !IsUnspendable out.scriptPubKey then none
    else subtractCoinbaseOutputs vout (remaining.modify out.nAsset.GetAsset (· - out.nValue.GetAmount))

/-- `VerifyCoinbaseAmount`: the coinbase pays out no more of each asset than
the fees; `tx` is a coinbase. -/
def VerifyCoinbaseAmount (tx : CTransaction) (mapFees : CAmountMap) : Bool :=
  tx.witness.vtxoutwit.all CTxOutWitness.IsNull &&
    match subtractCoinbaseOutputs g_con_elementsmode tx.vout mapFees with
    | some remaining => remaining.MoneyRange
    | none => false

end Fees

/-- `Consensus::CheckTxInputs`: the fee map and the peg-in claims with this
transaction's added. -/
def CheckTxInputs (g_con_elementsmode fScriptChecks : Bool) (pegins : PeginChecks)
    (VerifyAmounts : List CTxOut → CTransaction → Bool) (tx : CTransaction) (inputs : CCoinsViewCache)
    (nSpendHeight : Int) (fee_map : CAmountMap) (setPeginsSpent : List (Uint256 × COutPoint)) :
    Except String (CAmountMap × List (Uint256 × COutPoint)) := do
  if !inputs.HaveInputs g_con_elementsmode tx then throw "bad-txns-inputs-missingorspent"
  let tally ← tallyInputs pegins inputs nSpendHeight tx 0 tx.vin ⟨[], 0, setPeginsSpent⟩
  if g_con_elementsmode then
    if !HasValidFee g_con_elementsmode tx then throw "bad-txns-fee-outofrange"
    if fScriptChecks && !VerifyAmounts tally.spent_inputs tx then throw "bad-txns-in-ne-out"
    let fee_map := fee_map.add (GetFeeMap g_con_elementsmode tx)
    if !fee_map.MoneyRange then throw "bad-block-total-fee-outofrange"
    pure (fee_map, tally.setPeginsSpent)
  else
    let value_out := (← GetValueOutMap tx).get default
    if tally.nValueIn < value_out then throw "bad-txns-in-belowout"
    let txfee_aux := tally.nValueIn - value_out
    if !MoneyRange txfee_aux then throw "bad-txns-fee-outofrange"
    pure (fee_map.modify default (· + txfee_aux), tally.setPeginsSpent)

end Elements
