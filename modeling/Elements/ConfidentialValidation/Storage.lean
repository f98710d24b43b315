import Mathlib.Algebra.Order.BigOperators.Group.List
import Elements.ConfidentialValidation.Balance

/-! The storage `VerifyAmounts` reserves. It reserves `vData` for one
commitment per input, per output and per issuance pseudo-input, and stores
into `vpCommitsIn` and `vpCommitsOut` raw pointers into `vData`, taken from a
cursor `p` that starts at `vData.data()`. Those pointers stay valid only if
`vData` is never reallocated, that is, if no run pushes more commitments than
were reserved. The model keeps the pointers as offsets from `vData.data()`;
`Layout` says that the cursor is the end of `vData` and that every slot of
`vData` is addressed by exactly one stored pointer, and `Grows` bounds how
many commitments and generators a run of a loop pushes. -/

namespace Elements

open Wire

variable {G : Type}

/-- What `GetNumIssuances` counts for one input: its issuance's non-null
amounts, each of which `VerifyAmounts` turns into a pseudo-input. -/
def issuancePushes (txin : CTxIn) : Nat :=
  if !txin.assetIssuance.IsNull then
    (if !txin.assetIssuance.nAmount.IsNull then 1 else 0) +
      (if !txin.assetIssuance.nInflationKeys.IsNull then 1 else 0)
  else 0

theorem foldl_issuancePushes {f : Nat → CTxIn → Nat}
    (step : ∀ num txin, f num txin = num + issuancePushes txin) :
    ∀ (txins : List CTxIn) (num : Nat), txins.foldl f num = num + (txins.map issuancePushes).sum
  | [], num => rfl
  | txin :: txins, num => by
    rw [List.foldl_cons, foldl_issuancePushes step txins, step, List.map_cons, List.sum_cons,
      Nat.add_assoc]

theorem GetNumIssuances_eq_sum (tx : CTransaction) :
    GetNumIssuances tx = (tx.vin.map issuancePushes).sum := by
  unfold GetNumIssuances
  rw [foldl_issuancePushes, Nat.zero_add]
  intro num txin
  unfold issuancePushes
  split <;> omega

theorem map_snd_zip_sublist {α β : Type} :
    ∀ (as : List α) (bs : List β), ((as.zip bs).map Prod.snd).Sublist bs
  | [], _ => by simp
  | _ :: _, [] => by simp
  | _ :: as, b :: bs => by
    simpa using (map_snd_zip_sublist as bs).cons_cons b

theorem sum_issuancePushes_le (inputs : List CTxOut) (tx : CTransaction) (k : Nat) :
    (((inputs.zip tx.vin).take k).map fun pair => issuancePushes pair.2).sum ≤
      GetNumIssuances tx := by
  have reached : (((inputs.zip tx.vin).take k).map Prod.snd).Sublist tx.vin :=
    ((List.take_sublist k _).map Prod.snd).trans (map_snd_zip_sublist inputs tx.vin)
  have bounded := (reached.map issuancePushes).sum_le_sum fun _ _ => Nat.zero_le _
  rw [List.map_map] at bounded
  rw [GetNumIssuances_eq_sum]
  exact bounded

namespace AmountsState

variable {st st₁ st₂ st₃ : AmountsState G} {commit gen : G}

/-- The cursor is the end of `vData`, and the stored pointers address the
slots of `vData` one each: the pointer stored with a commitment is the slot it
was pushed to. -/
structure Layout (st : AmountsState G) : Prop extends st.Wf where
  addressed : (st.vpCommitsIn ++ st.vpCommitsOut).Perm (List.range st.vData.length)

theorem Layout.initial : (initial : AmountsState G).Layout :=
  ⟨initial_wf, by simp [AmountsState.initial]⟩

theorem Layout.pushGenerator (layout : st.Layout) : (st.pushGenerator gen).Layout :=
  ⟨layout.toWf.pushGenerator, layout.addressed⟩

theorem Layout.pushIn (layout : st.Layout) : (st.pushIn commit).Layout where
  toWf := layout.toWf.pushIn
  addressed := by
    -- the new pointer is the old cursor, which is the new last slot
    simp only [AmountsState.pushIn, List.length_append, List.length_singleton, List.range_succ,
      List.append_assoc, List.singleton_append, layout.cursor]
    exact List.perm_middle.trans
      ((layout.addressed.cons _).trans (List.perm_append_singleton _ _).symm)

theorem Layout.pushOut (layout : st.Layout) : (st.pushOut commit).Layout where
  toWf := layout.toWf.pushOut
  addressed := by
    simp only [AmountsState.pushOut, List.length_append, List.length_singleton, List.range_succ,
      ← List.append_assoc, layout.cursor]
    exact layout.addressed.append_right _

theorem Layout.of_requeued (layout : st.Layout) (requeued : Requeued st st') : st'.Layout := by
  rcases requeued with ⟨extra, rfl⟩
  exact ⟨⟨layout.cursor, layout.pointersIn, layout.pointersOut⟩, layout.addressed⟩

/-- A run from `st` to `st'` keeps the layout and pushes at most `commits`
commitments and at most `generators` generators. -/
structure Grows (st st' : AmountsState G) (commits generators : Nat) : Prop where
  layout : st.Layout → st'.Layout
  vData : st'.vData.length ≤ st.vData.length + commits
  targetGenerators : st'.targetGenerators.length ≤ st.targetGenerators.length + generators

theorem Grows.refl (st : AmountsState G) : Grows st st 0 0 :=
  ⟨id, Nat.le_refl _, Nat.le_refl _⟩

theorem Grows.trans {c₁ c₂ g₁ g₂ : Nat} (first : Grows st₁ st₂ c₁ g₁)
    (second : Grows st₂ st₃ c₂ g₂) : Grows st₁ st₃ (c₁ + c₂) (g₁ + g₂) where
  layout := second.layout ∘ first.layout
  vData := by
    have := first.vData
    have := second.vData
    omega
  targetGenerators := by
    have := first.targetGenerators
    have := second.targetGenerators
    omega

theorem Grows.mono {c c' g g' : Nat} (grows : Grows st st' c g) (le_c : c ≤ c') (le_g : g ≤ g') :
    Grows st st' c' g' :=
  ⟨grows.layout, Nat.le_trans grows.vData (Nat.add_le_add_left le_c _),
    Nat.le_trans grows.targetGenerators (Nat.add_le_add_left le_g _)⟩

theorem Grows.of_requeued (requeued : Requeued st st') : Grows st st' 0 0 := by
  rcases requeued with ⟨extra, rfl⟩
  exact ⟨(·.of_requeued ⟨extra, rfl⟩), Nat.le_refl _, Nat.le_refl _⟩

theorem Grows.pushIn (st : AmountsState G) (commit : G) : Grows st (st.pushIn commit) 1 0 :=
  ⟨Layout.pushIn, by simp [AmountsState.pushIn], by simp [AmountsState.pushIn]⟩

theorem Grows.pushOut (st : AmountsState G) (commit : G) : Grows st (st.pushOut commit) 1 0 :=
  ⟨Layout.pushOut, by simp [AmountsState.pushOut], by simp [AmountsState.pushOut]⟩

theorem Grows.pushGenerator (st : AmountsState G) (gen : G) :
    Grows st (st.pushGenerator gen) 0 1 :=
  ⟨Layout.pushGenerator, by simp [AmountsState.pushGenerator],
    by simp [AmountsState.pushGenerator]⟩

end AmountsState

open AmountsState

/-- `VerifyAmounts`'s state fits the storage reserved for `tx`, and its
pointers address `vData` one slot each. -/
structure WithinReserve (tx : CTransaction) (st : AmountsState G) : Prop where
  layout : st.Layout
  vData : st.vData.length ≤ tx.vin.length + tx.vout.length + GetNumIssuances tx
  targetGenerators : st.targetGenerators.length ≤ tx.vin.length + GetNumIssuances tx

theorem WithinReserve.of_grows {tx : CTransaction} {st : AmountsState G} {c g : Nat}
    (grows : Grows initial st c g) (le_c : c ≤ tx.vin.length + tx.vout.length + GetNumIssuances tx)
    (le_g : g ≤ tx.vin.length + GetNumIssuances tx) : WithinReserve tx st where
  layout := grows.layout Layout.initial
  vData := Nat.le_trans grows.vData (by simpa [AmountsState.initial] using le_c)
  targetGenerators := Nat.le_trans grows.targetGenerators (by simpa [AmountsState.initial] using le_g)

section Loops

variable [AddCommGroup G] [DecidableEq G]
variable (crypto : Secp256k1 G) (H : Hashes) (peggedAsset : CAsset) (useQueue : Bool)
variable {st st' : AmountsState G} {tx : CTransaction} {i : Nat}

theorem QueueCheck_grows {check : CCheck G} (ok : QueueCheck crypto useQueue check st = some st') :
    Grows st st' 0 0 :=
  Grows.of_requeued (QueueCheck_requeued crypto useQueue ok).1

theorem VerifyIssuanceAmount_requeued {asset : CAsset} {value : CConfidentialValue}
    {rangeproof : Bytes} {commit gen : G}
    (verified : VerifyIssuanceAmount crypto peggedAsset useQueue asset value rangeproof st =
      some (commit, gen, st')) :
    Requeued st st' := by
  unfold VerifyIssuanceAmount at verified
  split_ifs at verified
  · rcases Option.map_eq_some_iff.mp verified with ⟨_, _, same⟩
    cases same
    exact Requeued.refl st
  · simp only [Option.bind_eq_bind, Option.pure_def] at verified
    rcases Option.bind_eq_some_iff.mp verified with ⟨st₁, queued, rest⟩
    rcases Option.bind_eq_some_iff.mp rest with ⟨_, _, same⟩
    cases same
    exact (QueueCheck_requeued crypto useQueue queued).1

theorem pushIssuance_grows {asset : CAsset} {value : CConfidentialValue}
    {rangeproof : CTxInWitness → Bytes}
    (pushed : pushIssuance crypto peggedAsset useQueue tx i asset value rangeproof st = some st') :
    Grows st st' (if !value.IsNull then 1 else 0) (if !value.IsNull then 1 else 0) := by
  unfold pushIssuance at pushed
  by_cases null : value.IsNull
  · simp only [null, if_true, Option.some.injEq] at pushed
    subst pushed
    simpa [null] using Grows.refl st
  · rw [if_neg null] at pushed
    split at pushed
    · cases pushed
    · rcases Option.bind_eq_some_iff.mp pushed with ⟨⟨commit, gen, st₁⟩, verified, rest⟩
      cases rest
      have pushes := ((Grows.of_requeued (VerifyIssuanceAmount_requeued crypto peggedAsset
        useQueue verified)).trans (Grows.pushGenerator st₁ gen)).trans (Grows.pushIn _ commit)
      simpa [null] using pushes

theorem verifyIssuance_grows {spentAsset : CConfidentialAsset} {txin : CTxIn}
    (verified : verifyIssuance crypto H peggedAsset useQueue tx i spentAsset txin st = some st') :
    Grows st st' (issuancePushes txin) (issuancePushes txin) := by
  unfold verifyIssuance at verified
  by_cases null : txin.assetIssuance.IsNull
  · simp only [null, if_true, Option.some.injEq] at verified
    subst verified
    simpa [issuancePushes, null] using Grows.refl st
  · rcases assets : H.issuanceAssets txin with ⟨assetID, assetTokenID⟩
    simp only [null, assets, Bool.false_eq_true, if_false, Option.ite_none_left_eq_some] at verified
    rcases verified with ⟨-, -, verified⟩
    rcases Option.bind_eq_some_iff.mp verified with ⟨st₁, amount, tokens⟩
    simp only [Option.ite_none_left_eq_some] at tokens
    rcases tokens with ⟨-, -, tokens⟩
    have pushes := (pushIssuance_grows crypto peggedAsset useQueue amount).trans
      (pushIssuance_grows crypto peggedAsset useQueue tokens)
    simpa [issuancePushes, null] using pushes

theorem verifyInput_grows {spent : CTxOut} {txin : CTxIn}
    (verified : verifyInput crypto H peggedAsset useQueue tx i spent txin st = some st') :
    Grows st st' (1 + issuancePushes txin) (1 + issuancePushes txin) := by
  simp only [verifyInput, Option.bind_eq_bind] at verified
  split_ifs at verified
  rcases Option.bind_eq_some_iff.mp verified with ⟨gen, -, verified⟩
  rcases Option.bind_eq_some_iff.mp verified with ⟨commit, -, issued⟩
  have pushes := ((Grows.pushGenerator st gen).trans (Grows.pushIn _ commit)).trans
    (verifyIssuance_grows crypto H peggedAsset useQueue issued)
  exact pushes.mono (by omega) (by omega)

theorem verifyInputs_grows (pairs : List (CTxOut × CTxIn))
    (verified : verifyInputs crypto H peggedAsset useQueue tx i pairs st = some st') :
    Grows st st' (pairs.length + (pairs.map fun pair => issuancePushes pair.2).sum)
      (pairs.length + (pairs.map fun pair => issuancePushes pair.2).sum) := by
  induction pairs generalizing i st with
  | nil =>
    cases verified
    exact Grows.refl _
  | cons pair pairs ih =>
    rcases Option.bind_eq_some_iff.mp verified with ⟨st₁, first, rest⟩
    have pushes := (verifyInput_grows crypto H peggedAsset useQueue first).trans (ih rest)
    refine pushes.mono ?_ ?_ <;> simp only [List.length_cons, List.map_cons, List.sum_cons] <;> omega

theorem verifyOutput_grows {txout : CTxOut} (verified : verifyOutput crypto txout st = some st') :
    Grows st st' 1 0 := by
  simp only [verifyOutput, Option.bind_eq_bind, Option.pure_def] at verified
  split at verified
  · cases verified
  rcases Option.bind_eq_some_iff.mp verified with ⟨gen, -, verified⟩
  split at verified
  · split at verified
    · cases verified
    split at verified
    · -- a zero amount to an unspendable script is skipped
      split at verified
      · cases verified
        exact (Grows.refl st).mono (Nat.zero_le _) (Nat.le_refl _)
      · cases verified
    · rcases Option.bind_eq_some_iff.mp verified with ⟨commit, -, pushed⟩
      cases pushed
      exact Grows.pushOut st commit
  · split at verified
    · rcases Option.bind_eq_some_iff.mp verified with ⟨commit, -, pushed⟩
      cases pushed
      exact Grows.pushOut st commit
    · cases verified

theorem verifyOutputs_grows (outs : List CTxOut)
    (verified : verifyOutputs crypto outs st = some st') : Grows st st' outs.length 0 := by
  induction outs generalizing st with
  | nil =>
    cases verified
    exact Grows.refl _
  | cons txout outs ih =>
    rcases Option.bind_eq_some_iff.mp verified with ⟨st₁, first, rest⟩
    have pushes := (verifyOutput_grows crypto first).trans (ih rest)
    exact pushes.mono (by simp only [List.length_cons]; omega) (Nat.le_refl _)

theorem verifyRangeProofs_grows (pairs : List (CTxOut × Option CTxOutWitness))
    (verified : verifyRangeProofs crypto useQueue pairs st = some st') : Grows st st' 0 0 :=
  Grows.of_requeued (verifyRangeProofs_eq_some crypto useQueue pairs verified).1

theorem verifySurjectionProofs_grows (wtxid : Uint256) (pairs : List (CTxOut × Option CTxOutWitness))
    (verified : verifySurjectionProofs crypto useQueue wtxid pairs st = some st') :
    Grows st st' 0 0 :=
  Grows.of_requeued (verifySurjectionProofs_eq_some crypto useQueue wtxid pairs verified).1

/-- `VerifyAmounts` never pushes more than it reserved: after every iteration
of the input loop, after every iteration of the output loop, and at the end,
`vData` holds at most `vin.size() + vout.size() + GetNumIssuances(tx)`
commitments and `target_generators` at most `vin.size() + GetNumIssuances(tx)`
generators, so `vData` is never reallocated; and then the cursor `p` is
`vData.data() + vData.size()` and every slot of `vData` is addressed by the one
pointer stored when it was pushed. -/
theorem VerifyAmounts_within_reserve (getWitnessHash : CTransaction → Uint256)
    (inputs : List CTxOut) (tx : CTransaction) :
    (∀ k st, verifyInputs crypto H peggedAsset useQueue tx 0 ((inputs.zip tx.vin).take k)
        initial = some st → WithinReserve tx st) ∧
    (∀ stIn j st, verifyInputs crypto H peggedAsset useQueue tx 0 (inputs.zip tx.vin) initial =
        some stIn → verifyOutputs crypto (tx.vout.take j) stIn = some st → WithinReserve tx st) ∧
    ∀ st, VerifyAmounts crypto H peggedAsset useQueue getWitnessHash inputs tx = some st →
      WithinReserve tx st := by
  have inputsFit : ∀ k, ((inputs.zip tx.vin).take k).length ≤ tx.vin.length := by
    intro k
    simp only [List.length_take, List.length_zip]
    omega
  have issuancesFit := sum_issuancePushes_le inputs tx
  have inputLoop : ∀ stIn, verifyInputs crypto H peggedAsset useQueue tx 0 (inputs.zip tx.vin)
      initial = some stIn → Grows initial stIn (tx.vin.length + GetNumIssuances tx)
        (tx.vin.length + GetNumIssuances tx) := by
    intro stIn verified
    have pushes := verifyInputs_grows crypto H peggedAsset useQueue _ verified
    have whole := inputsFit (inputs.zip tx.vin).length
    have issued := issuancesFit (inputs.zip tx.vin).length
    rw [List.take_length] at whole issued
    exact pushes.mono (by omega) (by omega)
  refine ⟨?_, ?_, ?_⟩
  · intro k st verified
    have pushes := verifyInputs_grows crypto H peggedAsset useQueue _ verified
    have fits := inputsFit k
    have issued := issuancesFit k
    exact WithinReserve.of_grows pushes (by omega) (by omega)
  · intro stIn j st verifiedIn verifiedOut
    have pushes := (inputLoop stIn verifiedIn).trans (verifyOutputs_grows crypto _ verifiedOut)
    have fits : (tx.vout.take j).length ≤ tx.vout.length := by
      simp only [List.length_take]
      omega
    exact WithinReserve.of_grows pushes (by omega) (by omega)
  · intro st verified
    simp only [VerifyAmounts, Option.bind_eq_bind] at verified
    rcases Option.bind_eq_some_iff.mp verified with ⟨stIn, verifiedIn, verified⟩
    rcases Option.bind_eq_some_iff.mp verified with ⟨stOut, verifiedOut, verified⟩
    rcases Option.bind_eq_some_iff.mp verified with ⟨stBalance, balanced, verified⟩
    rcases Option.bind_eq_some_iff.mp verified with ⟨stRange, ranged, surjected⟩
    have pushes := ((((inputLoop stIn verifiedIn).trans
      (verifyOutputs_grows crypto _ verifiedOut)).trans
      (QueueCheck_grows crypto useQueue balanced)).trans
      (verifyRangeProofs_grows crypto useQueue _ ranged)).trans
      (verifySurjectionProofs_grows crypto useQueue _ _ surjected)
    exact WithinReserve.of_grows pushes (by omega) (by omega)

end Loops

end Elements
