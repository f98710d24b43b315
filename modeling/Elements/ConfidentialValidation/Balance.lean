import Mathlib.Data.List.GetD
import Mathlib.LinearAlgebra.LinearIndependent.Basic
import Elements.Algebra.Tally
import Elements.ConfidentialValidation

/-! What `VerifyAmounts` guarantees of a transaction whose amounts are all
explicit. The commitments it balances are then the explicit amounts of the
spent outputs, of the issuance pseudo-inputs and of the outputs, each times
its asset's generator; when those generators are independent the one tally
equation splits into one equation per asset. The loops are followed through
`AddsIn` and `AddsOut`, which say by how much a run of the loop grows the two
sides of the tally, and compose along the loop. -/

namespace Elements

open Wire Tally

variable {G : Type}

namespace AmountsState

variable {st st₁ st₂ st₃ : AmountsState G} {commit gen : G}

structure Wf (st : AmountsState G) : Prop where
  cursor : st.p = st.vData.length
  pointersIn : ∀ i ∈ st.vpCommitsIn, i < st.p
  pointersOut : ∀ i ∈ st.vpCommitsOut, i < st.p

theorem initial_wf : (initial : AmountsState G).Wf :=
  ⟨rfl, by simp [initial], by simp [initial]⟩

theorem Wf.pushGenerator (wf : st.Wf) : (st.pushGenerator gen).Wf :=
  ⟨wf.cursor, wf.pointersIn, wf.pointersOut⟩

theorem Wf.pushIn (wf : st.Wf) : (st.pushIn commit).Wf where
  cursor := by simp [AmountsState.pushIn, wf.cursor]
  pointersIn := by
    simp only [AmountsState.pushIn, List.mem_append, List.mem_singleton]
    rintro i (old | rfl)
    · exact Nat.lt_succ_of_lt (wf.pointersIn i old)
    · exact Nat.lt_succ_self _
  pointersOut i mem := Nat.lt_succ_of_lt (wf.pointersOut i mem)

theorem Wf.pushOut (wf : st.Wf) : (st.pushOut commit).Wf where
  cursor := by simp [AmountsState.pushOut, wf.cursor]
  pointersIn i mem := Nat.lt_succ_of_lt (wf.pointersIn i mem)
  pointersOut := by
    simp only [AmountsState.pushOut, List.mem_append, List.mem_singleton]
    rintro i (old | rfl)
    · exact Nat.lt_succ_of_lt (wf.pointersOut i old)
    · exact Nat.lt_succ_self _

theorem map_getD_push (wf : st.Wf) {pointers : List Nat} (below : ∀ i ∈ pointers, i < st.p)
    (default : G) :
    pointers.map ((st.vData ++ [commit]).getD · default) = pointers.map (st.vData.getD · default) :=
  List.map_congr_left fun i mem => List.getD_append _ _ _ _ (wf.cursor ▸ below i mem)

theorem getD_cursor (wf : st.Wf) (default : G) :
    (st.vData ++ [commit]).getD st.p default = commit := by
  rw [List.getD_append_right _ _ _ _ (le_of_eq wf.cursor.symm), wf.cursor]
  simp

/-- `st'` is `st` with checks appended to its queue. -/
def Requeued (st st' : AmountsState G) : Prop :=
  ∃ extra, st' = { st with queued := st.queued ++ extra }

theorem Requeued.refl (st : AmountsState G) : Requeued st st := ⟨[], by simp⟩

theorem Requeued.trans (first : Requeued st₁ st₂) (second : Requeued st₂ st₃) :
    Requeued st₁ st₃ := by
  rcases first with ⟨extra₁, rfl⟩
  rcases second with ⟨extra₂, rfl⟩
  exact ⟨extra₁ ++ extra₂, by simp⟩

theorem Requeued.mem_queued {check : CCheck G} (requeued : Requeued st st')
    (queued : check ∈ st.queued) : check ∈ st'.queued := by
  rcases requeued with ⟨extra, rfl⟩
  exact List.mem_append_left _ queued

variable [AddCommGroup G]

/-- The commitments the pointers of `vpCommitsIn` reach. -/
def commitsIn (st : AmountsState G) : List G := st.vpCommitsIn.map (st.vData.getD · 0)

/-- The commitments the pointers of `vpCommitsOut` reach. -/
def commitsOut (st : AmountsState G) : List G := st.vpCommitsOut.map (st.vData.getD · 0)

@[simp] theorem commitsIn_initial : (initial : AmountsState G).commitsIn = [] := rfl

@[simp] theorem commitsOut_initial : (initial : AmountsState G).commitsOut = [] := rfl

@[simp] theorem commitsIn_pushGenerator : (st.pushGenerator gen).commitsIn = st.commitsIn := rfl

@[simp] theorem commitsOut_pushGenerator : (st.pushGenerator gen).commitsOut = st.commitsOut := rfl

theorem commitsIn_pushIn (wf : st.Wf) : (st.pushIn commit).commitsIn = st.commitsIn ++ [commit] := by
  simp only [commitsIn, AmountsState.pushIn, List.map_append, map_getD_push wf wf.pointersIn _,
    List.map_singleton, getD_cursor wf _]

theorem commitsOut_pushIn (wf : st.Wf) : (st.pushIn commit).commitsOut = st.commitsOut :=
  map_getD_push wf wf.pointersOut _

theorem commitsIn_pushOut (wf : st.Wf) : (st.pushOut commit).commitsIn = st.commitsIn :=
  map_getD_push wf wf.pointersIn _

theorem commitsOut_pushOut (wf : st.Wf) :
    (st.pushOut commit).commitsOut = st.commitsOut ++ [commit] := by
  simp only [commitsOut, AmountsState.pushOut, List.map_append, map_getD_push wf wf.pointersOut _,
    List.map_singleton, getD_cursor wf _]

end AmountsState

open AmountsState

/-- `secp256k1_generator_generate` on an explicit asset's identifier. -/
def Secp256k1.explicitGenerator (crypto : Secp256k1 G) (asset : CAsset) : G :=
  crypto.generatorGenerate asset.id

def NullOrExplicit (value : CConfidentialValue) : Bool := value.IsNull || value.IsExplicit

/-- The pseudo-input of an issuance amount: none for a null amount. -/
def pseudoInput (asset : CAsset) (value : CConfidentialValue) : List (CAsset × ℤ) :=
  if value.IsNull then [] else [(asset, value.GetAmount)]

def spentTerms (inputs : List CTxOut) : List (CAsset × ℤ) :=
  inputs.map fun spent => (spent.nAsset.GetAsset, spent.nValue.GetAmount)

def outputTerms (tx : CTransaction) : List (CAsset × ℤ) :=
  tx.vout.map fun txout => (txout.nAsset.GetAsset, txout.nValue.GetAmount)

namespace Hashes

variable (H : Hashes)

/-- The pseudo-inputs of an input's issuance: the issued amount of the asset,
then the reissuance tokens, each under the identifier `VerifyAmounts` derives. -/
def txinIssuanceTerms (txin : CTxIn) : List (CAsset × ℤ) :=
  pseudoInput (H.issuanceAssets txin).1 txin.assetIssuance.nAmount ++
    pseudoInput (H.issuanceAssets txin).2 txin.assetIssuance.nInflationKeys

def issuanceTerms (tx : CTransaction) : List (CAsset × ℤ) :=
  tx.vin.flatMap H.txinIssuanceTerms

theorem txinIssuanceTerms_of_IsNull {txin : CTxIn} (null : txin.assetIssuance.IsNull = true) :
    H.txinIssuanceTerms txin = [] := by
  simp only [CAssetIssuance.IsNull, Bool.and_eq_true] at null
  simp [txinIssuanceTerms, pseudoInput, null]

def involvedAssets (inputs : List CTxOut) (tx : CTransaction) : Set CAsset :=
  {asset | asset ∈ (spentTerms inputs ++ H.issuanceTerms tx ++ outputTerms tx).map Prod.fst}

end Hashes

structure ExplicitAmounts (inputs : List CTxOut) (tx : CTransaction) : Prop where
  spent : ∀ spent ∈ inputs, spent.nAsset.IsExplicit ∧ spent.nValue.IsExplicit
  issuances : ∀ txin ∈ tx.vin,
    NullOrExplicit txin.assetIssuance.nAmount ∧ NullOrExplicit txin.assetIssuance.nInflationKeys
  outputs : ∀ txout ∈ tx.vout, txout.nAsset.IsExplicit ∧ txout.nValue.IsExplicit

def OutputInRange (txout : CTxOut) : Prop :=
  0 ≤ txout.nValue.GetAmount ∧ txout.nValue.GetAmount ≤ MAX_MONEY ∧
    (txout.nValue.GetAmount = 0 → IsUnspendable txout.scriptPubKey = true)

variable [AddCommGroup G]

/-- `st'` is well formed and adds to `st` input commitments that weigh `terms`. -/
structure AddsIn (gen : CAsset → G) (terms : List (CAsset × ℤ)) (st st' : AmountsState G) :
    Prop where
  wf : st'.Wf
  sumIn : st'.commitsIn.sum = st.commitsIn.sum + weigh gen terms
  commitsOut : st'.commitsOut = st.commitsOut

/-- `st'` is well formed and adds to `st` output commitments that weigh `terms`. -/
structure AddsOut (gen : CAsset → G) (terms : List (CAsset × ℤ)) (st st' : AmountsState G) :
    Prop where
  wf : st'.Wf
  commitsIn : st'.commitsIn = st.commitsIn
  sumOut : st'.commitsOut.sum = st.commitsOut.sum + weigh gen terms

section Adds

variable {gen : CAsset → G} {st st₁ st₂ st₃ : AmountsState G} {terms terms₁ terms₂ : List (CAsset × ℤ)}

theorem AddsIn.refl (wf : st.Wf) : AddsIn gen [] st st := ⟨wf, by simp, rfl⟩

theorem AddsIn.trans (first : AddsIn gen terms₁ st₁ st₂) (second : AddsIn gen terms₂ st₂ st₃) :
    AddsIn gen (terms₁ ++ terms₂) st₁ st₃ where
  wf := second.wf
  sumIn := by rw [second.sumIn, first.sumIn, weigh_append, add_assoc]
  commitsOut := second.commitsOut.trans first.commitsOut

theorem AddsIn.push (wf : st.Wf) (asset : CAsset) (value : ℤ) (generator : G) :
    AddsIn gen [(asset, value)] st ((st.pushGenerator generator).pushIn (value • gen asset)) where
  wf := wf.pushGenerator.pushIn
  sumIn := by simp [commitsIn_pushIn wf.pushGenerator]
  commitsOut := commitsOut_pushIn wf.pushGenerator

theorem AddsOut.refl (wf : st.Wf) : AddsOut gen [] st st := ⟨wf, rfl, by simp⟩

theorem AddsOut.trans (first : AddsOut gen terms₁ st₁ st₂) (second : AddsOut gen terms₂ st₂ st₃) :
    AddsOut gen (terms₁ ++ terms₂) st₁ st₃ where
  wf := second.wf
  commitsIn := second.commitsIn.trans first.commitsIn
  sumOut := by rw [second.sumOut, first.sumOut, weigh_append, add_assoc]

theorem AddsOut.skip (wf : st.Wf) (asset : CAsset) : AddsOut gen [(asset, 0)] st st :=
  ⟨wf, rfl, by simp⟩

theorem AddsOut.push (wf : st.Wf) (asset : CAsset) (value : ℤ) :
    AddsOut gen [(asset, value)] st (st.pushOut (value • gen asset)) where
  wf := wf.pushOut
  commitsIn := commitsIn_pushOut wf
  sumOut := by simp [commitsOut_pushOut wf]

end Adds

variable [DecidableEq G]

theorem secp256k1PedersenCommit_eq_some {value : UInt64} {gen commit : G}
    (committed : secp256k1PedersenCommit value gen = some commit) :
    commit = value.toNat • gen ∧ commit ≠ 0 := by
  simp only [secp256k1PedersenCommit] at committed
  split_ifs at committed with infinity
  cases committed
  exact ⟨rfl, infinity⟩

theorem secp256k1PedersenCommit_ofInt {value : ℤ} {gen commit : G} (nonneg : 0 ≤ value)
    (small : value < 2 ^ 64)
    (committed : secp256k1PedersenCommit (UInt64.ofInt value) gen = some commit) :
    commit = value • gen ∧ 0 < value := by
  have toNat : (UInt64.ofInt value).toNat = value.toNat := by
    simp only [UInt64.ofInt, UInt64.toNat_ofNat']
    omega
  rcases secp256k1PedersenCommit_eq_some committed with ⟨rfl, nonzero⟩
  have scaled : (UInt64.ofInt value).toNat • gen = value • gen := by
    rw [toNat, ← natCast_zsmul, Int.toNat_of_nonneg nonneg]
  refine ⟨scaled, lt_of_le_of_ne nonneg ?_⟩
  rintro rfl
  exact nonzero (by rw [scaled, zero_smul])

theorem GetAmount_lt (value : CConfidentialValue) : value.GetAmount < 2 ^ 63 :=
  Int64.toInt_lt _

omit [AddCommGroup G] [DecidableEq G] in
theorem assetGenerator_explicit (crypto : Secp256k1 G) {asset : CConfidentialAsset}
    (explicit : asset.IsExplicit = true) :
    assetGenerator crypto asset = some (crypto.explicitGenerator asset.GetAsset) := by
  simp [assetGenerator, explicit, Secp256k1.explicitGenerator]

section Inputs

variable (crypto : Secp256k1 G) (H : Hashes) (peggedAsset : CAsset) (useQueue : Bool)
variable {tx : CTransaction} {i : Nat} {st st' : AmountsState G}

theorem inputCommitment_explicit {val : CConfidentialValue} {gen commit : G}
    (explicit : val.IsExplicit = true) (committed : inputCommitment crypto val gen = some commit) :
    commit = val.GetAmount • gen ∧ 0 < val.GetAmount ∧ val.GetAmount ≤ MAX_MONEY := by
  simp only [inputCommitment, explicit, if_true] at committed
  split_ifs at committed with outOfRange
  simp only [MoneyRange, Bool.not_eq_true', Bool.and_eq_false_iff, decide_eq_false_iff_not,
    not_le, not_or, not_lt] at outOfRange
  obtain ⟨rfl, positive⟩ :=
    secp256k1PedersenCommit_ofInt outOfRange.1 (lt_trans (GetAmount_lt val) (by omega)) committed
  exact ⟨rfl, positive, outOfRange.2⟩

theorem VerifyIssuanceAmount_explicit {asset : CAsset} {value : CConfidentialValue}
    {rangeproof : Bytes} {commit gen : G} (explicit : value.IsExplicit = true)
    (verified : VerifyIssuanceAmount crypto peggedAsset useQueue asset value rangeproof st =
      some (commit, gen, st')) :
    commit = value.GetAmount • crypto.explicitGenerator asset ∧
      gen = crypto.explicitGenerator asset ∧ st' = st := by
  simp only [VerifyIssuanceAmount, explicit, if_true] at verified
  split_ifs at verified with refused
  rcases Option.map_eq_some_iff.mp verified with ⟨commit', committed, same⟩
  cases same
  simp only [Bool.or_eq_true, Bool.and_eq_true, not_or, decide_eq_true_eq, not_le] at refused
  exact ⟨(secp256k1PedersenCommit_ofInt refused.2.le
    (lt_trans (GetAmount_lt value) (by omega)) committed).1, rfl, rfl⟩

theorem pushIssuance_adds {asset : CAsset} {value : CConfidentialValue}
    {rangeproof : CTxInWitness → Bytes} (wf : st.Wf) (nullOrExplicit : NullOrExplicit value = true)
    (pushed : pushIssuance crypto peggedAsset useQueue tx i asset value rangeproof st = some st') :
    AddsIn crypto.explicitGenerator (pseudoInput asset value) st st' := by
  unfold pushIssuance at pushed
  by_cases null : value.IsNull
  · simp only [null, if_true, Option.some.injEq] at pushed
    subst pushed
    simpa [pseudoInput, null] using AddsIn.refl wf
  · have explicit : value.IsExplicit = true := by simpa [NullOrExplicit, null] using nullOrExplicit
    rw [if_neg null] at pushed
    split at pushed
    · cases pushed
    · rcases Option.bind_eq_some_iff.mp pushed with ⟨⟨commit, gen, st₁⟩, verified, rest⟩
      obtain ⟨rfl, rfl, rfl⟩ :=
        VerifyIssuanceAmount_explicit crypto peggedAsset useQueue explicit verified
      cases rest
      simpa [pseudoInput, null] using AddsIn.push wf asset value.GetAmount _

theorem verifyIssuance_adds {spentAsset : CConfidentialAsset} {txin : CTxIn} (wf : st.Wf)
    (explicit : NullOrExplicit txin.assetIssuance.nAmount ∧
      NullOrExplicit txin.assetIssuance.nInflationKeys)
    (verified : verifyIssuance crypto H peggedAsset useQueue tx i spentAsset txin st = some st') :
    AddsIn crypto.explicitGenerator (H.txinIssuanceTerms txin) st st' := by
  unfold verifyIssuance at verified
  by_cases null : txin.assetIssuance.IsNull
  · simp only [null, if_true, Option.some.injEq] at verified
    subst verified
    rw [H.txinIssuanceTerms_of_IsNull null]
    exact AddsIn.refl wf
  · rcases assets : H.issuanceAssets txin with ⟨assetID, assetTokenID⟩
    simp only [null, assets, Bool.false_eq_true, if_false, Option.ite_none_left_eq_some] at verified
    rcases verified with ⟨-, -, verified⟩
    rcases Option.bind_eq_some_iff.mp verified with ⟨st₁, amount, tokens⟩
    simp only [Option.ite_none_left_eq_some] at tokens
    rcases tokens with ⟨-, -, tokens⟩
    have adds₁ := pushIssuance_adds crypto peggedAsset useQueue wf explicit.1 amount
    have adds₂ := pushIssuance_adds crypto peggedAsset useQueue adds₁.wf explicit.2 tokens
    simpa only [Hashes.txinIssuanceTerms, assets] using adds₁.trans adds₂

theorem verifyInput_adds {spent : CTxOut} {txin : CTxIn} (wf : st.Wf)
    (explicitSpent : spent.nAsset.IsExplicit ∧ spent.nValue.IsExplicit)
    (explicitIssuance : NullOrExplicit txin.assetIssuance.nAmount ∧
      NullOrExplicit txin.assetIssuance.nInflationKeys)
    (verified : verifyInput crypto H peggedAsset useQueue tx i spent txin st = some st') :
    AddsIn crypto.explicitGenerator
        ((spent.nAsset.GetAsset, spent.nValue.GetAmount) :: H.txinIssuanceTerms txin) st st' ∧
      0 < spent.nValue.GetAmount ∧ spent.nValue.GetAmount ≤ MAX_MONEY := by
  simp only [verifyInput, assetGenerator_explicit crypto explicitSpent.1, Option.bind_eq_bind,
    Option.bind_some] at verified
  split_ifs at verified
  rcases Option.bind_eq_some_iff.mp verified with ⟨commit, committed, issued⟩
  rcases inputCommitment_explicit crypto explicitSpent.2 committed with ⟨rfl, positive, bounded⟩
  have pushed : AddsIn crypto.explicitGenerator [(spent.nAsset.GetAsset, spent.nValue.GetAmount)]
      st _ := AddsIn.push wf _ _ (crypto.explicitGenerator spent.nAsset.GetAsset)
  exact ⟨pushed.trans (verifyIssuance_adds crypto H peggedAsset useQueue pushed.wf
    explicitIssuance issued), positive, bounded⟩

theorem verifyInputs_adds (pairs : List (CTxOut × CTxIn)) (wf : st.Wf)
    (explicitSpent : ∀ pair ∈ pairs, pair.1.nAsset.IsExplicit ∧ pair.1.nValue.IsExplicit)
    (explicitIssuance : ∀ pair ∈ pairs, NullOrExplicit pair.2.assetIssuance.nAmount ∧
      NullOrExplicit pair.2.assetIssuance.nInflationKeys)
    (verified : verifyInputs crypto H peggedAsset useQueue tx i pairs st = some st') :
    AddsIn crypto.explicitGenerator (pairs.flatMap fun pair =>
        (pair.1.nAsset.GetAsset, pair.1.nValue.GetAmount) :: H.txinIssuanceTerms pair.2) st st' ∧
      ∀ pair ∈ pairs, 0 < pair.1.nValue.GetAmount ∧ pair.1.nValue.GetAmount ≤ MAX_MONEY := by
  induction pairs generalizing i st with
  | nil =>
    cases verified
    exact ⟨AddsIn.refl wf, by simp⟩
  | cons pair pairs ih =>
    rcases pair with ⟨spent, txin⟩
    rcases Option.bind_eq_some_iff.mp verified with ⟨st₁, first, rest⟩
    obtain ⟨adds₁, positive, bounded⟩ := verifyInput_adds crypto H peggedAsset useQueue wf
      (explicitSpent _ List.mem_cons_self) (explicitIssuance _ List.mem_cons_self) first
    obtain ⟨adds, inRange⟩ := ih adds₁.wf
      (fun pair mem => explicitSpent pair (List.mem_cons_of_mem _ mem))
      (fun pair mem => explicitIssuance pair (List.mem_cons_of_mem _ mem)) rest
    refine ⟨adds₁.trans adds, ?_⟩
    rintro pair (_ | ⟨_, mem⟩)
    · exact ⟨positive, bounded⟩
    · exact inRange pair mem

end Inputs

section Outputs

variable (crypto : Secp256k1 G) {st st' : AmountsState G}

theorem verifyOutput_adds {txout : CTxOut} (wf : st.Wf)
    (explicit : txout.nAsset.IsExplicit ∧ txout.nValue.IsExplicit)
    (verified : verifyOutput crypto txout st = some st') :
    AddsOut crypto.explicitGenerator [(txout.nAsset.GetAsset, txout.nValue.GetAmount)] st st' ∧
      OutputInRange txout := by
  simp only [verifyOutput, assetGenerator_explicit crypto explicit.1, explicit.2,
    Option.bind_eq_bind, Option.bind_some, Option.pure_def, if_true] at verified
  split_ifs at verified with invalid outOfRange zero unspendable
  · -- a zero amount to an unspendable script is skipped
    cases verified
    simp only [MoneyRange, Bool.not_eq_true', Bool.not_eq_false, Bool.and_eq_true,
      decide_eq_true_eq] at outOfRange
    rw [zero]
    exact ⟨AddsOut.skip wf _, outOfRange.1, outOfRange.2, fun _ => unspendable⟩
  · rcases Option.bind_eq_some_iff.mp verified with ⟨commit, committed, ⟨⟩⟩
    simp only [MoneyRange, Bool.not_eq_true', Bool.not_eq_false, Bool.and_eq_true,
      decide_eq_true_eq] at outOfRange
    obtain ⟨rfl, -⟩ := secp256k1PedersenCommit_ofInt outOfRange.1
      (lt_trans (GetAmount_lt _) (by omega)) committed
    exact ⟨AddsOut.push wf _ _, outOfRange.1, outOfRange.2, fun isZero => absurd isZero zero⟩

theorem verifyOutputs_adds (outs : List CTxOut) (wf : st.Wf)
    (explicit : ∀ txout ∈ outs, txout.nAsset.IsExplicit ∧ txout.nValue.IsExplicit)
    (verified : verifyOutputs crypto outs st = some st') :
    AddsOut crypto.explicitGenerator
        (outs.map fun txout => (txout.nAsset.GetAsset, txout.nValue.GetAmount)) st st' ∧
      ∀ txout ∈ outs, OutputInRange txout := by
  induction outs generalizing st with
  | nil =>
    cases verified
    exact ⟨AddsOut.refl wf, by simp⟩
  | cons txout outs ih =>
    rcases Option.bind_eq_some_iff.mp verified with ⟨st₁, first, rest⟩
    rcases verifyOutput_adds crypto wf (explicit _ List.mem_cons_self) first with ⟨adds₁, inRange₁⟩
    obtain ⟨adds, inRange⟩ :=
      ih adds₁.wf (fun txout mem => explicit txout (List.mem_cons_of_mem _ mem)) rest
    refine ⟨adds₁.trans adds, ?_⟩
    rintro txout (_ | ⟨_, mem⟩)
    · exact inRange₁
    · exact inRange txout mem

end Outputs

section Proofs

variable (crypto : Secp256k1 G) (useQueue : Bool) {st st' : AmountsState G}

theorem QueueCheck_requeued {check : CCheck G}
    (ok : QueueCheck crypto useQueue check st = some st') :
    Requeued st st' ∧ (check.run crypto = true ∨ check ∈ st'.queued) := by
  unfold QueueCheck at ok
  split_ifs at ok with queue ran
  · cases ok
    exact ⟨⟨[check], rfl⟩, .inr (by simp)⟩
  · cases ok
    exact ⟨Requeued.refl st, .inl ran⟩

theorem verifyRangeProof_eq_some {txout : CTxOut} {ptxoutwit : Option CTxOutWitness}
    (verified : verifyRangeProof crypto useQueue txout ptxoutwit st = some st') :
    Requeued st st' ∧ (txout.nValue.IsExplicit = true →
      ∀ txoutwit, ptxoutwit = some txoutwit → txoutwit.vchRangeproof = []) := by
  by_cases explicit : txout.nValue.IsExplicit
  · simp only [verifyRangeProof, explicit, if_true] at verified
    split_ifs at verified with withProof
    cases verified
    refine ⟨Requeued.refl st, fun _ txoutwit present => ?_⟩
    simpa [present] using withProof
  · simp only [verifyRangeProof, explicit, Bool.false_eq_true, if_false] at verified
    cases ptxoutwit with
    | none => cases verified
    | some txoutwit =>
      exact ⟨(QueueCheck_requeued crypto useQueue verified).1, fun isExplicit => absurd isExplicit explicit⟩

theorem verifyRangeProofs_eq_some (pairs : List (CTxOut × Option CTxOutWitness))
    (verified : verifyRangeProofs crypto useQueue pairs st = some st') :
    Requeued st st' ∧ ∀ pair ∈ pairs, pair.1.nValue.IsExplicit = true →
      ∀ txoutwit, pair.2 = some txoutwit → txoutwit.vchRangeproof = [] := by
  induction pairs generalizing st with
  | nil =>
    cases verified
    exact ⟨Requeued.refl _, by simp⟩
  | cons pair pairs ih =>
    rcases Option.bind_eq_some_iff.mp verified with ⟨st₁, first, rest⟩
    rcases verifyRangeProof_eq_some crypto useQueue first with ⟨requeued₁, empty₁⟩
    rcases ih rest with ⟨requeued, empty⟩
    refine ⟨requeued₁.trans requeued, ?_⟩
    rintro pair' (_ | ⟨_, mem⟩)
    · exact empty₁
    · exact empty pair' mem

theorem verifySurjectionProof_eq_some {wtxid : Uint256} {txout : CTxOut}
    {ptxoutwit : Option CTxOutWitness}
    (verified : verifySurjectionProof crypto useQueue wtxid txout ptxoutwit st = some st') :
    Requeued st st' ∧ (txout.nAsset.IsExplicit = true →
      ∀ txoutwit, ptxoutwit = some txoutwit → txoutwit.vchSurjectionproof = []) := by
  by_cases explicit : txout.nAsset.IsExplicit
  · simp only [verifySurjectionProof, explicit, if_true] at verified
    split_ifs at verified with withProof
    cases verified
    refine ⟨Requeued.refl st, fun _ txoutwit present => ?_⟩
    simpa [present] using withProof
  · simp only [verifySurjectionProof, explicit, Bool.false_eq_true, if_false] at verified
    refine ⟨?_, fun isExplicit => absurd isExplicit explicit⟩
    cases ptxoutwit with
    | none => cases verified
    | some txoutwit =>
      simp only [Option.ite_none_left_eq_some] at verified
      rcases verified with ⟨-, verified⟩
      cases parsed : crypto.generatorParse txout.nAsset.vchCommitment with
      | none => simp [parsed] at verified
      | some gen =>
        simp only [parsed, Option.ite_none_left_eq_some] at verified
        exact (QueueCheck_requeued crypto useQueue verified.2).1

theorem verifySurjectionProofs_eq_some (wtxid : Uint256)
    (pairs : List (CTxOut × Option CTxOutWitness))
    (verified : verifySurjectionProofs crypto useQueue wtxid pairs st = some st') :
    Requeued st st' ∧ ∀ pair ∈ pairs, pair.1.nAsset.IsExplicit = true →
      ∀ txoutwit, pair.2 = some txoutwit → txoutwit.vchSurjectionproof = [] := by
  induction pairs generalizing st with
  | nil =>
    cases verified
    exact ⟨Requeued.refl _, by simp⟩
  | cons pair pairs ih =>
    rcases Option.bind_eq_some_iff.mp verified with ⟨st₁, first, rest⟩
    rcases verifySurjectionProof_eq_some crypto useQueue first with ⟨requeued₁, empty₁⟩
    rcases ih rest with ⟨requeued, empty⟩
    refine ⟨requeued₁.trans requeued, ?_⟩
    rintro pair' (_ | ⟨_, mem⟩)
    · exact empty₁
    · exact empty pair' mem

end Proofs

theorem mem_outputsWithWitness {tx : CTransaction} {i : Nat} {txoutwit : CTxOutWitness}
    (below : i < tx.vout.length) (present : tx.witness.vtxoutwit[i]? = some txoutwit) :
    (tx.vout[i], some txoutwit) ∈ outputsWithWitness tx :=
  List.mem_mapIdx.mpr ⟨i, below, by rw [present]⟩

/-- What `VerifyAmounts` guarantees of an accepted transaction whose amounts
are all explicit. -/
structure ExplicitBalance (H : Hashes) (inputs : List CTxOut) (tx : CTransaction) : Prop where
  /-- Per asset, the spent amounts and the issued amounts make up the outputs. -/
  conserved : ∀ asset, valueOf asset (spentTerms inputs) + valueOf asset (H.issuanceTerms tx) =
    valueOf asset (outputTerms tx)
  spentInRange : ∀ spent ∈ inputs, 0 < spent.nValue.GetAmount ∧ spent.nValue.GetAmount ≤ MAX_MONEY
  outputsInRange : ∀ txout ∈ tx.vout, OutputInRange txout
  noProofs : ∀ i txoutwit, i < tx.vout.length → tx.witness.vtxoutwit[i]? = some txoutwit →
    txoutwit.vchRangeproof = [] ∧ txoutwit.vchSurjectionproof = []

section Conservation

variable (crypto : Secp256k1 G) (H : Hashes) (peggedAsset : CAsset) (useQueue : Bool)

omit [DecidableEq G] in
theorem weigh_balanced {inputs : List CTxOut} {tx : CTransaction} {st₁ st₂ : AmountsState G}
    (oneSpentPerInput : inputs.length = tx.vin.length)
    (addsIn : AddsIn crypto.explicitGenerator ((inputs.zip tx.vin).flatMap fun pair =>
      (pair.1.nAsset.GetAsset, pair.1.nValue.GetAmount) :: H.txinIssuanceTerms pair.2) initial st₁)
    (addsOut : AddsOut crypto.explicitGenerator (outputTerms tx) st₁ st₂)
    (balanced : st₂.commitsIn.sum = st₂.commitsOut.sum) :
    weigh crypto.explicitGenerator (spentTerms inputs ++ H.issuanceTerms tx) =
      weigh crypto.explicitGenerator (outputTerms tx) := by
  have interleaved : weigh crypto.explicitGenerator (spentTerms inputs ++ H.issuanceTerms tx) =
      weigh crypto.explicitGenerator ((inputs.zip tx.vin).flatMap fun pair =>
        (pair.1.nAsset.GetAsset, pair.1.nValue.GetAmount) :: H.txinIssuanceTerms pair.2) := by
    rw [weigh_flatMap_cons, weigh_append]
    congr 2
    · conv_lhs => rw [spentTerms, ← List.map_fst_zip oneSpentPerInput.le]
      rw [List.map_map]
      rfl
    · conv_lhs => rw [Hashes.issuanceTerms, ← List.map_snd_zip oneSpentPerInput.ge]
      rw [List.flatMap_map]
  calc weigh crypto.explicitGenerator (spentTerms inputs ++ H.issuanceTerms tx)
      = st₁.commitsIn.sum := by rw [interleaved, addsIn.sumIn, commitsIn_initial, List.sum_nil,
          zero_add]
    _ = st₂.commitsIn.sum := by rw [addsOut.commitsIn]
    _ = st₂.commitsOut.sum := balanced
    _ = weigh crypto.explicitGenerator (outputTerms tx) := by
      rw [addsOut.sumOut, addsIn.commitsOut, commitsOut_initial, List.sum_nil, zero_add]

theorem VerifyAmounts_conserves_explicit (getWitnessHash : CTransaction → Uint256)
    (inputs : List CTxOut) (tx : CTransaction) (st : AmountsState G)
    (oneSpentPerInput : inputs.length = tx.vin.length)
    (explicit : ExplicitAmounts inputs tx)
    (independent : LinearIndepOn ℤ crypto.explicitGenerator (H.involvedAssets inputs tx))
    (accepted : VerifyAmounts crypto H peggedAsset useQueue getWitnessHash inputs tx = some st)
    (checked : ∀ check ∈ st.queued, check.run crypto = true) :
    ExplicitBalance H inputs tx := by
  rcases Option.bind_eq_some_iff.mp accepted with ⟨st₁, inputsOk, rest⟩
  rcases Option.bind_eq_some_iff.mp rest with ⟨st₂, outputsOk, rest⟩
  rcases Option.bind_eq_some_iff.mp rest with ⟨st₃, balanceOk, rest⟩
  rcases Option.bind_eq_some_iff.mp rest with ⟨st₄, rangeOk, surjectionOk⟩
  obtain ⟨addsIn, spentInRange⟩ := verifyInputs_adds crypto H peggedAsset useQueue _ initial_wf
    (fun pair mem => explicit.spent _ (List.of_mem_zip mem).1)
    (fun pair mem => explicit.issuances _ (List.of_mem_zip mem).2) inputsOk
  obtain ⟨addsOut, outputsInRange⟩ :=
    verifyOutputs_adds crypto tx.vout addsIn.wf explicit.outputs outputsOk
  rcases QueueCheck_requeued crypto useQueue balanceOk with ⟨-, balanceRan⟩
  rcases verifyRangeProofs_eq_some crypto useQueue _ rangeOk with ⟨requeued₄, noRangeproof⟩
  obtain ⟨requeued, noSurjectionproof⟩ :=
    verifySurjectionProofs_eq_some crypto useQueue _ _ surjectionOk
  -- the tally either ran at once or waits in the queue the caller runs
  have tally : (CCheck.balance st₂.vData st₂.vpCommitsIn st₂.vpCommitsOut).run crypto = true :=
    balanceRan.elim id fun queued => checked _ ((requeued₄.trans requeued).mem_queued queued)
  have balanced : st₂.commitsIn.sum = st₂.commitsOut.sum := by
    simpa [CCheck.run, secp256k1PedersenVerifyTally, commitsIn, commitsOut] using tally
  have weighs := weigh_balanced crypto H oneSpentPerInput addsIn addsOut balanced
  have involved : ∀ t ∈ spentTerms inputs ++ H.issuanceTerms tx ++ outputTerms tx,
      t.1 ∈ H.involvedAssets inputs tx := fun t mem => List.mem_map_of_mem mem
  refine ⟨fun asset => ?_, fun spent mem => ?_, outputsInRange, fun i txoutwit below present => ?_⟩
  · rw [← valueOf_append]
    exact valueOf_eq_of_weigh_eq independent
      (fun t mem => involved t (List.mem_append_left _ mem))
      (fun t mem => involved t (List.mem_append_right _ mem)) weighs asset
  · obtain ⟨pair, paired, rfl⟩ : ∃ pair ∈ inputs.zip tx.vin, pair.1 = spent := by
      rw [← List.mem_map, List.map_fst_zip oneSpentPerInput.le]
      exact mem
    exact spentInRange pair paired
  · have mem := mem_outputsWithWitness below present
    have explicitOut := explicit.outputs _ (List.getElem_mem below)
    exact ⟨noRangeproof _ mem explicitOut.2 txoutwit rfl,
      noSurjectionproof _ mem explicitOut.1 txoutwit rfl⟩

/-- A transfer of five units of one explicit asset to an output. -/
theorem VerifyAmounts_conserves_explicit_transfer :
    ExplicitBalance ⟨fun _ => Uint256.zero, fun _ => Uint256.zero, fun _ => []⟩
      [⟨⟨1 :: List.replicate 32 0⟩, ⟨[1, 0, 0, 0, 0, 0, 0, 0, 5]⟩, .null, [0x51]⟩]
      ⟨[⟨⟨Uint256.zero, 0⟩, [], CTxIn.SEQUENCE_FINAL, CAssetIssuance.null, false⟩],
        [⟨⟨1 :: List.replicate 32 0⟩, ⟨[1, 0, 0, 0, 0, 0, 0, 0, 5]⟩, .null, [0x51]⟩], 2, 0,
        CTxWitness.empty⟩ := by
  let crypto : Secp256k1 ℤ := ⟨fun _ => 1, fun _ _ => none, fun _ => none, fun _ => [],
    fun _ => none, fun _ _ _ _ => false, fun _ => false, fun _ _ _ _ => false⟩
  let H : Hashes := ⟨fun _ => Uint256.zero, fun _ => Uint256.zero, fun _ => []⟩
  let txout : CTxOut := ⟨⟨1 :: List.replicate 32 0⟩, ⟨[1, 0, 0, 0, 0, 0, 0, 0, 5]⟩, .null, [0x51]⟩
  let txin : CTxIn := ⟨⟨Uint256.zero, 0⟩, [], CTxIn.SEQUENCE_FINAL, CAssetIssuance.null, false⟩
  let tx : CTransaction := ⟨[txin], [txout], 2, 0, CTxWitness.empty⟩
  have noIssuance : H.txinIssuanceTerms txin = [] := H.txinIssuanceTerms_of_IsNull (by decide)
  -- every amount is of the one asset, whose generator is nonzero
  have independent : LinearIndepOn ℤ crypto.explicitGenerator (H.involvedAssets [txout] tx) := by
    refine LinearIndepOn.mono ((linearIndepOn_singleton_iff ℤ).mpr one_ne_zero :
      LinearIndepOn ℤ crypto.explicitGenerator {txout.nAsset.GetAsset}) ?_
    intro asset mem
    simp only [Hashes.involvedAssets, Set.mem_ofPred_eq, spentTerms, Hashes.issuanceTerms, outputTerms,
      tx, List.flatMap_cons, List.flatMap_nil, noIssuance, List.map_cons, List.map_nil,
      List.nil_append, List.append_nil, List.cons_append, List.mem_cons, List.not_mem_nil,
      or_false, or_self] at mem
    exact mem
  exact VerifyAmounts_conserves_explicit crypto H default false (fun _ => Uint256.zero) [txout] tx
    ⟨[5, 5], [0], [1], [1], 2, []⟩ rfl ⟨by decide, by decide, by decide⟩ independent rfl
    (by simp)

end Conservation

end Elements
