import Elements.Wallet.Knapsack

/-! What the Elements `KnapsackSolver` returns. For every stream of draws: the single-asset solver
returns groups of the pool, each once, whose selection amounts reach its target; and where no
outpoint is in two groups of the pool, the multi-asset solver selects coins of the pool, each once,
that cover every asset's target, the policy asset's with the fees of all the coins on top. -/

namespace Elements

theorem perm_swap_set {α : Type} {rest : List α} {i : Nat} (inside : i < rest.length) (a : α) :
    (rest.getD i a :: rest.set i a).Perm (a :: rest) := by
  have split := List.take_append_drop i rest
  rw [List.drop_eq_getElem_cons inside] at split
  rw [List.set_eq_take_append_cons_drop, if_pos inside, List.getD_eq_getElem _ _ inside]
  conv => rhs; rw [← split]
  -- both sides are `rest[i]` and `a` in front of the rest without its `i`-th element
  exact ((List.perm_middle.cons _).trans (List.Perm.swap _ _ _)).trans (List.perm_middle.symm.cons _)

theorem FastRandomContext.randrange_lt (rng : FastRandomContext) {range : Nat} (positive : 0 < range) :
    (rng.randrange range).1 < range :=
  Nat.mod_lt _ positive

theorem perm_shuffleLoop {α : Type} : ∀ (fuel : Nat) (items : List α) (rng : FastRandomContext),
    (shuffleLoop fuel items rng).1.Perm items
  | 0, _, _ => List.Perm.refl _
  | _ + 1, [], _ => List.Perm.refl _
  | fuel + 1, first :: rest, rng => by
      have below := rng.randrange_lt (Nat.succ_pos rest.length)
      rcases draw : rng.randrange (rest.length + 1) with ⟨j, rng'⟩
      rw [draw] at below
      simp only [shuffleLoop, draw]
      split_ifs with zero
      · exact (perm_shuffleLoop fuel rest rng').cons first
      · -- the first element swapped with the `j`-th
        have inside : j - 1 < rest.length := by omega
        exact ((perm_shuffleLoop fuel _ rng').cons _).trans (perm_swap_set inside first)

theorem perm_Shuffle {α : Type} (items : List α) (rng : FastRandomContext) : (Shuffle items rng).1.Perm items :=
  perm_shuffleLoop _ items rng

namespace SelectionResult

theorem contains_eq_false {result : SelectionResult} {coin : CInputCoin}
    (fresh : coin.outpoint ∉ result.m_selected_inputs.map (·.outpoint)) : result.contains coin = false := by
  simpa [contains] using fresh

theorem insert_of_fresh {result : SelectionResult} {coin : CInputCoin}
    (fresh : coin.outpoint ∉ result.m_selected_inputs.map (·.outpoint)) :
    (result.insert coin).m_selected_inputs = result.m_selected_inputs ++ [coin] := by
  rw [insert, dif_neg (by rw [contains_eq_false fresh]; exact Bool.false_ne_true)]

theorem foldl_insert_of_fresh : ∀ (coins : List CInputCoin) (result : SelectionResult),
    ((result.m_selected_inputs ++ coins).map (·.outpoint)).Nodup →
    (coins.foldl insert result).m_selected_inputs = result.m_selected_inputs ++ coins
  | [], result, _ => by rw [List.foldl_nil, List.append_nil]
  | coin :: coins, result, nodup => by
      have fresh : coin.outpoint ∉ result.m_selected_inputs.map (·.outpoint) := by
        rw [List.map_append, List.map_cons] at nodup
        exact fun mem => List.disjoint_of_nodup_append nodup mem List.mem_cons_self
      have inserted := insert_of_fresh fresh
      rw [List.foldl_cons, foldl_insert_of_fresh coins (result.insert coin)
          (by rwa [inserted, List.append_assoc, List.singleton_append]),
        inserted, List.append_assoc, List.singleton_append]

theorem foldl_AddInput_of_fresh : ∀ (groups : List CoinGroup) (result : SelectionResult),
    ((result.m_selected_inputs ++ groups.flatMap (·.m_outputs)).map (·.outpoint)).Nodup →
    (groups.foldl AddInput result).m_selected_inputs = result.m_selected_inputs ++ groups.flatMap (·.m_outputs)
  | [], result, _ => by rw [List.foldl_nil, List.flatMap_nil, List.append_nil]
  | group :: groups, result, nodup => by
      rw [List.flatMap_cons, ← List.append_assoc] at nodup
      have added : (result.AddInput group).m_selected_inputs = result.m_selected_inputs ++ group.m_outputs :=
        foldl_insert_of_fresh _ _ (by rw [List.map_append] at nodup; exact nodup.of_append_left)
      rw [List.foldl_cons, foldl_AddInput_of_fresh groups _ (by rwa [added]), added, List.flatMap_cons,
        List.append_assoc]

theorem AddInputs_of_fresh {result other : SelectionResult}
    (nodup : ((result.m_selected_inputs ++ other.m_selected_inputs).map (·.outpoint)).Nodup) :
    (result.AddInputs other).m_selected_inputs = result.m_selected_inputs ++ other.m_selected_inputs :=
  foldl_insert_of_fresh _ _ nodup

end SelectionResult

/-- The value of `asset` among `coins`. -/
def valueOfAsset (coins : List CInputCoin) (asset : CAsset) : CAmount :=
  ((coins.filter (·.asset == asset)).map (·.value)).sum

theorem valueOfAsset_append (coins coins' : List CInputCoin) (asset : CAsset) :
    valueOfAsset (coins ++ coins') asset = valueOfAsset coins asset + valueOfAsset coins' asset := by
  simp only [valueOfAsset, List.filter_append, List.map_append, List.sum_append]

theorem valueFor_foldl_plus : ∀ (coins : List CInputCoin) (sum : CAmountMap), sum.KeysUnique →
    (coins.foldl (fun sum coin => sum.plus ⟨[(coin.asset, coin.value)]⟩) sum).KeysUnique ∧
      ∀ asset, (coins.foldl (fun sum coin => sum.plus ⟨[(coin.asset, coin.value)]⟩) sum).valueFor asset =
        sum.valueFor asset + valueOfAsset coins asset
  | [], sum, unique => ⟨unique, fun asset => by simp [valueOfAsset]⟩
  | coin :: coins, sum, unique => by
      have single : (⟨[(coin.asset, coin.value)]⟩ : CAmountMap).KeysUnique := List.nodup_singleton _
      obtain ⟨unique', summed⟩ := valueFor_foldl_plus coins (sum.plus ⟨[(coin.asset, coin.value)]⟩)
        (CAmountMap.keysUnique_add (CAmountMap.keysUnique_add CAmountMap.keysUnique_empty))
      refine ⟨unique', fun asset => ?_⟩
      rw [List.foldl_cons, summed, CAmountMap.valueFor_plus unique single, CAmountMap.valueFor_cons,
        CAmountMap.valueFor_nil, show coin :: coins = [coin] ++ coins from rfl, valueOfAsset_append]
      by_cases same : coin.asset = asset <;> simp [valueOfAsset, same, add_assoc]

theorem valueFor_GetSelectedValue (result : SelectionResult) (asset : CAsset) :
    result.GetSelectedValue.valueFor asset = valueOfAsset result.m_selected_inputs asset := by
  rw [SelectionResult.GetSelectedValue, (valueFor_foldl_plus _ _ CAmountMap.keysUnique_empty).2,
    CAmountMap.valueFor_empty, zero_add]

def maskSum : List CAmount → List Bool → CAmount
  | amount :: amounts, flag :: flags => (if flag then amount else 0) + maskSum amounts flags
  | _, _ => 0

theorem maskSum_set_true : ∀ (amounts : List CAmount) (flags : List Bool) (i : Nat), i < amounts.length →
    i < flags.length → flags.getD i false = false →
    maskSum amounts (flags.set i true) = maskSum amounts flags + amounts.getD i 0
  | [], _, _, inA, _, _ => absurd inA (Nat.not_lt_zero _)
  | _ :: _, [], _, _, inF, _ => absurd inF (Nat.not_lt_zero _)
  | amount :: amounts, flag :: flags, 0, _, _, fresh => by
      rw [List.getD_cons_zero] at fresh
      subst fresh
      simp only [List.set_cons_zero, maskSum, List.getD_cons_zero, if_true, Bool.false_eq_true, if_false]
      ring
  | amount :: amounts, flag :: flags, i + 1, inA, inF, fresh => by
      rw [List.getD_cons_succ] at fresh
      rw [List.set_cons_succ, maskSum, maskSum, List.getD_cons_succ,
        maskSum_set_true amounts flags i (by simpa using inA) (by simpa using inF) fresh]
      ring

theorem maskSum_replicate_false : ∀ (amounts : List CAmount) (n : Nat), maskSum amounts (List.replicate n false) = 0
  | [], _ => by cases ‹Nat› <;> rfl
  | _ :: _, 0 => rfl
  | _ :: amounts, n + 1 => by
      rw [List.replicate_succ, maskSum, maskSum_replicate_false amounts n]
      rfl

theorem maskSum_replicate_true : ∀ amounts : List CAmount, maskSum amounts (List.replicate amounts.length true) = amounts.sum
  | [] => rfl
  | amount :: amounts => by
      rw [List.length_cons, List.replicate_succ, maskSum, maskSum_replicate_true amounts, List.sum_cons, if_pos rfl]

theorem set_true_set_false {flags : List Bool} {i : Nat} (inside : i < flags.length)
    (off : flags.getD i false = false) : (flags.set i true).set i false = flags := by
  have at_i : flags[i] = false := by rw [← List.getD_eq_getElem _ false inside]; exact off
  rw [List.set_set, ← at_i, List.set_getElem_self]

theorem getD_set_of_ne {flags : List Bool} {i j : Nat} (other : j ≠ i) (b : Bool) :
    (flags.set i b).getD j false = flags.getD j false := by
  simp only [List.getD_eq_getElem?_getD, List.getElem?_set_ne (Ne.symm other)]

section Subset

variable (amounts : List CAmount) (threshold : CAmount)

structure BestHolds (s : SubsetSearch) : Prop where
  nBest_eq : s.nBest = maskSum amounts s.vfBest
  threshold_le : threshold ≤ s.nBest

structure IncludedHolds (s : SubsetSearch) : Prop where
  length_vfIncluded : s.vfIncluded.length = amounts.length
  nTotal_eq : s.nTotal = maskSum amounts s.vfIncluded

variable {amounts threshold}

theorem subsetVisit_holds {nPass : Nat} {s : SubsetSearch} {i : Nat} (inside : i < amounts.length)
    (best : BestHolds amounts threshold s) (included : IncludedHolds amounts s)
    (fresh : nPass = 0 → s.vfIncluded.getD i false = false) :
    BestHolds amounts threshold (subsetVisit amounts threshold nPass s i) ∧
      IncludedHolds amounts (subsetVisit amounts threshold nPass s i) ∧
      ∀ j, j ≠ i → (subsetVisit amounts threshold nPass s i).vfIncluded.getD j false = s.vfIncluded.getD j false := by
  generalize drawn : (if nPass = 0 then s.rng.randbool else (!s.vfIncluded.getD i false, s.rng)) = draw
  obtain ⟨taken, rng⟩ := draw
  have takenFresh : taken = true → s.vfIncluded.getD i false = false := by
    intro yes
    by_cases first : nPass = 0
    · exact fresh first
    · rw [if_neg first, Prod.mk.injEq] at drawn
      rw [← drawn.1] at yes
      simpa using yes
  unfold subsetVisit
  simp only [drawn]
  cases taken with
  | false => exact ⟨⟨best.nBest_eq, best.threshold_le⟩, ⟨included.length_vfIncluded, included.nTotal_eq⟩, fun _ _ => rfl⟩
  | true =>
      have off := takenFresh rfl
      have within : i < s.vfIncluded.length := included.length_vfIncluded ▸ inside
      have added : maskSum amounts (s.vfIncluded.set i true) = s.nTotal + amounts.getD i 0 := by
        rw [maskSum_set_true _ _ i inside within off, included.nTotal_eq]
      simp only [if_true]
      split_ifs with reached better
      · -- a better total: recorded, and the group put back
        refine ⟨⟨added.symm, reached⟩, ⟨?_, ?_⟩, fun j _ => ?_⟩ <;>
          simp only [set_true_set_false within off, add_sub_cancel_right, included.length_vfIncluded,
            included.nTotal_eq]
      · refine ⟨⟨best.nBest_eq, best.threshold_le⟩, ⟨?_, ?_⟩, fun j _ => ?_⟩ <;>
          simp only [set_true_set_false within off, add_sub_cancel_right, included.length_vfIncluded,
            included.nTotal_eq]
      · -- the group stays in
        refine ⟨⟨best.nBest_eq, best.threshold_le⟩, ⟨?_, added.symm⟩, fun j other => getD_set_of_ne other true⟩
        rw [List.length_set, included.length_vfIncluded]

theorem subsetPass_holds (nPass : Nat) {s : SubsetSearch} (best : BestHolds amounts threshold s)
    (included : IncludedHolds amounts s) (fresh : nPass = 0 → ∀ j, s.vfIncluded.getD j false = false) :
    BestHolds amounts threshold (subsetPass amounts threshold nPass s) ∧
      IncludedHolds amounts (subsetPass amounts threshold nPass s) := by
  -- induction on the number of groups visited, the unvisited ones still out in the first pass
  have visits : ∀ k, k ≤ amounts.length →
      BestHolds amounts threshold ((List.range k).foldl (subsetVisit amounts threshold nPass) s) ∧
        IncludedHolds amounts ((List.range k).foldl (subsetVisit amounts threshold nPass) s) ∧
        (nPass = 0 → ∀ j, k ≤ j →
          ((List.range k).foldl (subsetVisit amounts threshold nPass) s).vfIncluded.getD j false = false) := by
    intro k
    induction k with
    | zero => exact fun _ => ⟨best, included, fun first j _ => fresh first j⟩
    | succ k ih =>
        intro within
        obtain ⟨best', included', fresh'⟩ := ih (by omega)
        rw [List.range_succ, List.foldl_append, List.foldl_cons, List.foldl_nil]
        obtain ⟨best'', included'', others⟩ :=
          subsetVisit_holds (by omega) best' included' fun first => fresh' first k le_rfl
        refine ⟨best'', included'', fun first j later => ?_⟩
        rw [others j (by omega)]
        exact fresh' first j (by omega)
  obtain ⟨best', included', _⟩ := visits amounts.length le_rfl
  exact ⟨best', included'⟩

theorem subsetRep_holds {s : SubsetSearch} (best : BestHolds amounts threshold s) :
    BestHolds amounts threshold (subsetRep amounts threshold s) := by
  -- the repetition starts from nothing included
  let cleared : SubsetSearch :=
    { s with vfIncluded := List.replicate amounts.length false, nTotal := 0, fReachedTarget := false }
  have reset : IncludedHolds amounts cleared := ⟨List.length_replicate, (maskSum_replicate_false _ _).symm⟩
  obtain ⟨best₀, included₀⟩ := subsetPass_holds 0 (s := cleared) ⟨best.nBest_eq, best.threshold_le⟩ reset
    fun _ j => by simp [cleared, List.getD_eq_getElem?_getD]
  unfold subsetRep
  dsimp only
  split_ifs
  · exact best₀
  · exact (subsetPass_holds 1 best₀ included₀ fun one => absurd one Nat.one_ne_zero).1

theorem subsetLoop_holds : ∀ (iterations : Nat) (s : SubsetSearch), BestHolds amounts threshold s →
    BestHolds amounts threshold (subsetLoop amounts threshold iterations s)
  | 0, _, best => best
  | iterations + 1, s, best => by
      rw [subsetLoop]
      split_ifs
      · exact best
      · exact subsetLoop_holds iterations _ (subsetRep_holds best)

end Subset

variable (policyAsset : CAsset)

theorem ApproximateBestSubset_spec (groups : List CoinGroup) {nTotalLower threshold : CAmount} (iterations : Nat)
    (rng : FastRandomContext) (total : nTotalLower = (groups.map (·.group.GetSelectionAmount policyAsset)).sum)
    (reaches : threshold ≤ nTotalLower) :
    (ApproximateBestSubset policyAsset groups nTotalLower threshold iterations rng).2.1 =
        maskSum (groups.map (·.group.GetSelectionAmount policyAsset))
          (ApproximateBestSubset policyAsset groups nTotalLower threshold iterations rng).1 ∧
      threshold ≤ (ApproximateBestSubset policyAsset groups nTotalLower threshold iterations rng).2.1 := by
  have initial : BestHolds (groups.map (·.group.GetSelectionAmount policyAsset)) threshold
      ⟨[], 0, false, List.replicate groups.length true, nTotalLower, rng⟩ := by
    refine ⟨?_, reaches⟩
    dsimp only
    rw [← List.length_map (f := fun group : CoinGroup => group.group.GetSelectionAmount policyAsset),
      maskSum_replicate_true, total]
  have final := subsetLoop_holds iterations _ initial
  exact ⟨final.nBest_eq, final.threshold_le⟩

theorem pickGroups_sublist : ∀ (groups : List CoinGroup) (flags : List Bool), (pickGroups groups flags).Sublist groups
  | [], _ => by simp [pickGroups]
  | _ :: _, [] => by simp [pickGroups]
  | group :: groups, flag :: flags => by
      have rest := pickGroups_sublist groups flags
      cases flag
      · simpa [pickGroups] using rest.cons group
      · simpa [pickGroups] using rest.cons_cons group

theorem sum_pickGroups (amount : CoinGroup → CAmount) : ∀ (groups : List CoinGroup) (flags : List Bool),
    ((pickGroups groups flags).map amount).sum = maskSum (groups.map amount) flags
  | [], _ => by simp [pickGroups, maskSum]
  | _ :: _, [] => by simp [pickGroups, maskSum]
  | group :: groups, flag :: flags => by
      have rest := sum_pickGroups amount groups flags
      cases flag
      · simpa [pickGroups, maskSum] using rest
      · simpa [pickGroups, maskSum] using rest

theorem knapsackScan_inl {target : CAmount} {group : CoinGroup} :
    ∀ {groups : List CoinGroup} {lowest_larger : Option CoinGroup} {applicable_groups : List CoinGroup}
      {nTotalLower : CAmount},
      knapsackScan policyAsset target groups lowest_larger applicable_groups nTotalLower = .inl group →
      group ∈ groups ∧ group.group.GetSelectionAmount policyAsset = target
  | [], _, _, _, scanned => by cases scanned
  | other :: groups, lowest_larger, applicable_groups, nTotalLower, scanned => by
      rw [knapsackScan] at scanned
      split_ifs at scanned with exact
      · cases scanned
        exact ⟨List.mem_cons_self, exact⟩
      all_goals
        obtain ⟨mem, exact⟩ := knapsackScan_inl scanned
        exact ⟨List.mem_cons_of_mem other mem, exact⟩

theorem knapsackScan_inr {target : CAmount} {lowest_larger' : Option CoinGroup} {applicable_groups' : List CoinGroup}
    {nTotalLower' : CAmount} :
    ∀ {groups : List CoinGroup} {lowest_larger : Option CoinGroup} {applicable_groups : List CoinGroup}
      {nTotalLower : CAmount},
      knapsackScan policyAsset target groups lowest_larger applicable_groups nTotalLower =
        .inr (lowest_larger', applicable_groups', nTotalLower') →
      (∃ taken : List CoinGroup, taken.Sublist groups ∧ applicable_groups' = applicable_groups ++ taken ∧
        nTotalLower' = nTotalLower + (taken.map (·.group.GetSelectionAmount policyAsset)).sum) ∧
      ∀ larger, lowest_larger' = some larger →
        lowest_larger = some larger ∨ (larger ∈ groups ∧ target + MIN_CHANGE ≤ larger.group.GetSelectionAmount policyAsset)
  | [], lowest_larger, applicable_groups, nTotalLower, scanned => by
      cases scanned
      exact ⟨⟨[], List.Sublist.slnil, by rw [List.append_nil], by simp⟩, fun _ found => Or.inl found⟩
  | group :: groups, lowest_larger, applicable_groups, nTotalLower, scanned => by
      rw [knapsackScan] at scanned
      split_ifs at scanned with exact below smaller
      · -- an applicable group
        obtain ⟨⟨taken, sub, appended, summed⟩, larger⟩ := knapsackScan_inr scanned
        refine ⟨⟨group :: taken, sub.cons_cons group, by rw [appended, List.append_assoc, List.singleton_append], ?_⟩,
          fun l found => (larger l found).imp id fun ⟨mem, bound⟩ => ⟨List.mem_cons_of_mem group mem, bound⟩⟩
        rw [summed, List.map_cons, List.sum_cons, add_assoc]
      · -- the least larger group so far
        obtain ⟨⟨taken, sub, appended, summed⟩, larger⟩ := knapsackScan_inr scanned
        refine ⟨⟨taken, sub.cons group, appended, summed⟩, fun l found => Or.inr ?_⟩
        rcases larger l found with same | ⟨mem, bound⟩
        · cases same
          exact ⟨List.mem_cons_self, not_lt.mp below⟩
        · exact ⟨List.mem_cons_of_mem group mem, bound⟩
      · obtain ⟨⟨taken, sub, appended, summed⟩, larger⟩ := knapsackScan_inr scanned
        exact ⟨⟨taken, sub.cons group, appended, summed⟩,
          fun l found => (larger l found).imp id fun ⟨mem, bound⟩ => ⟨List.mem_cons_of_mem group mem, bound⟩⟩

theorem MIN_CHANGE_pos : 0 < MIN_CHANGE := by decide

theorem bestSubset_spec (applicable_groups : List CoinGroup) (nTotalLower target : CAmount) (rng : FastRandomContext)
    (total : nTotalLower = (applicable_groups.map (·.group.GetSelectionAmount policyAsset)).sum)
    (above : target ≤ nTotalLower) :
    (bestSubset policyAsset applicable_groups nTotalLower target rng).2.1 =
        maskSum (applicable_groups.map (·.group.GetSelectionAmount policyAsset))
          (bestSubset policyAsset applicable_groups nTotalLower target rng).1 ∧
      target ≤ (bestSubset policyAsset applicable_groups nTotalLower target rng).2.1 := by
  have first := ApproximateBestSubset_spec policyAsset applicable_groups 1000 rng total above
  rcases run : ApproximateBestSubset policyAsset applicable_groups nTotalLower target 1000 rng with
    ⟨vfBest, nBest, rng'⟩
  rw [run] at first
  rw [bestSubset, run]
  dsimp only
  split_ifs with again
  · -- the second run, to `target + MIN_CHANGE`
    have second := ApproximateBestSubset_spec policyAsset applicable_groups 1000 rng' total again.2
    exact ⟨second.1, le_trans (le_add_of_nonneg_right MIN_CHANGE_pos.le) second.2⟩
  · exact first

theorem closerOf_spec {target nBest : CAmount} {lowest_larger : Option CoinGroup} {applicable_groups : List CoinGroup}
    {vfBest : List Bool}
    (larger : ∀ group, lowest_larger = some group → target + MIN_CHANGE ≤ group.group.GetSelectionAmount policyAsset)
    (best : nBest = maskSum (applicable_groups.map (·.group.GetSelectionAmount policyAsset)) vfBest)
    (reaches : target ≤ nBest) :
    ∃ chosen : List CoinGroup, (chosen = pickGroups applicable_groups vfBest ∨ ∃ group, lowest_larger = some group ∧ chosen = [group]) ∧
      target ≤ (chosen.map (·.group.GetSelectionAmount policyAsset)).sum ∧
      closerOf policyAsset target lowest_larger applicable_groups vfBest nBest = chosen.foldl SelectionResult.AddInput .empty := by
  have picked : target ≤ ((pickGroups applicable_groups vfBest).map (·.group.GetSelectionAmount policyAsset)).sum := by
    rw [sum_pickGroups, ← best]
    exact reaches
  cases lowest_larger with
  | none => exact ⟨_, Or.inl rfl, picked, rfl⟩
  | some group =>
      have bound := larger group rfl
      rw [closerOf]
      split_ifs
      · exact ⟨[group], Or.inr ⟨group, rfl, rfl⟩, by simpa using le_trans (le_add_of_nonneg_right MIN_CHANGE_pos.le) bound, rfl⟩
      · exact ⟨_, Or.inl rfl, picked, rfl⟩

theorem knapsackApproximate_spec {target nTotalLower : CAmount} {lowest_larger : Option CoinGroup}
    {applicable_groups sorted : List CoinGroup} (perm : sorted.Perm applicable_groups) (rng : FastRandomContext)
    (larger : ∀ group, lowest_larger = some group → target + MIN_CHANGE ≤ group.group.GetSelectionAmount policyAsset)
    (total : nTotalLower = (applicable_groups.map (·.group.GetSelectionAmount policyAsset)).sum)
    (above : target ≤ nTotalLower) :
    ∃ chosen : List CoinGroup, (chosen.Subperm applicable_groups ∨ ∃ group, lowest_larger = some group ∧ chosen = [group]) ∧
      target ≤ (chosen.map (·.group.GetSelectionAmount policyAsset)).sum ∧
      (knapsackApproximate policyAsset target lowest_larger sorted nTotalLower rng).1 =
        chosen.foldl SelectionResult.AddInput .empty := by
  have sortedTotal : nTotalLower = (sorted.map (·.group.GetSelectionAmount policyAsset)).sum :=
    total.trans ((perm.map _).sum_eq).symm
  have best := bestSubset_spec policyAsset sorted nTotalLower target rng sortedTotal above
  rcases run : bestSubset policyAsset sorted nTotalLower target rng with ⟨vfBest, nBest, rng'⟩
  rw [run] at best
  obtain ⟨chosen, which, sum, closer⟩ := closerOf_spec policyAsset larger best.1 best.2
  refine ⟨chosen, which.imp_left fun picked => ?_, sum, by rw [knapsackApproximate, run]; exact closer⟩
  rw [picked]
  exact (pickGroups_sublist _ _).subperm.trans perm.subperm

theorem KnapsackSolverAsset_spec {groups : List CoinGroup} {target : CAmount} {rng : FastRandomContext}
    {result : SelectionResult} (solved : (KnapsackSolverAsset policyAsset groups target rng).1 = some result) :
    ∃ chosen : List CoinGroup, chosen.Subperm groups ∧
      target ≤ (chosen.map (·.group.GetSelectionAmount policyAsset)).sum ∧
      result = chosen.foldl SelectionResult.AddInput .empty := by
  unfold KnapsackSolverAsset at solved
  rcases shuffled : Shuffle groups rng with ⟨order, rng₁⟩
  have perm : order.Perm groups := by
    have shuffles := perm_Shuffle groups rng
    rwa [shuffled] at shuffles
  rw [shuffled] at solved
  dsimp only at solved
  cases scan : knapsackScan policyAsset target order none [] 0 with
  | inl group =>
      simp only [scan, Option.some.injEq] at solved
      obtain ⟨mem, exact⟩ := knapsackScan_inl policyAsset scan
      exact ⟨[group], (List.singleton_sublist.mpr mem).subperm.trans perm.subperm, by simp [exact], solved.symm⟩
  | inr scanned =>
      obtain ⟨lowest_larger, applicable_groups, nTotalLower⟩ := scanned
      obtain ⟨⟨taken, sub, rfl, rfl⟩, larger⟩ := knapsackScan_inr policyAsset scan
      rw [scan] at solved
      dsimp only at solved
      have fromOrder : ∀ chosen : List CoinGroup, chosen.Sublist order → chosen.Subperm groups :=
        fun chosen sub => sub.subperm.trans perm.subperm
      have largerBound : ∀ group, lowest_larger = some group →
          group ∈ order ∧ target + MIN_CHANGE ≤ group.group.GetSelectionAmount policyAsset :=
        fun group found => (larger group found).resolve_left (by simp)
      split_ifs at solved with equal lower
      · -- the groups below the target sum to it
        rw [Option.some.injEq] at solved
        exact ⟨applicable_groups, fromOrder _ sub, by rw [← equal, zero_add], solved.symm⟩
      · -- they fall short: the least larger group
        cases lowest_larger with
        | none => cases solved
        | some group =>
            rw [Option.some.injEq] at solved
            obtain ⟨mem, bound⟩ := largerBound group rfl
            exact ⟨[group], fromOrder _ (List.singleton_sublist.mpr mem),
              by simpa using le_trans (le_add_of_nonneg_right MIN_CHANGE_pos.le) bound, solved.symm⟩
      · -- the stochastic approximation over the sorted groups
        have above : target ≤ 0 + (applicable_groups.map (·.group.GetSelectionAmount policyAsset)).sum :=
          le_of_lt (lt_of_le_of_ne (not_lt.mp lower) (Ne.symm equal))
        have sorted := List.perm_insertionSort (fun a b : CoinGroup =>
          a.group.GetSelectionAmount policyAsset ≥ b.group.GetSelectionAmount policyAsset) applicable_groups
        obtain ⟨chosen, which, sum, approximated⟩ := knapsackApproximate_spec policyAsset sorted rng₁
          (fun group found => (largerBound group found).2) (zero_add _) above
        rcases approx : knapsackApproximate policyAsset target lowest_larger _ _ rng₁ with ⟨result', rng₂⟩
        rw [approx] at solved approximated
        rw [Option.some.injEq] at solved
        refine ⟨chosen, ?_, sum, solved.symm.trans approximated⟩
        rcases which with within | ⟨group, found, rfl⟩
        · exact within.trans (fromOrder _ sub)
        · exact fromOrder _ (List.singleton_sublist.mpr (largerBound group found).1)

def FromPool (groups : List CoinGroup) (coin : CInputCoin) : Prop :=
  ∃ group ∈ groups, coin ∈ group.m_outputs ∧ ∀ other ∈ group.m_outputs, other.asset = coin.asset

theorem nodup_flatMap_of_subperm {chosen groups : List CoinGroup} (sub : chosen.Subperm groups)
    (distinct : ((groups.flatMap (·.m_outputs)).map (·.outpoint)).Nodup) :
    ((chosen.flatMap (·.m_outputs)).map (·.outpoint)).Nodup := by
  obtain ⟨between, perm, sublist⟩ := sub
  have within : ((between.flatMap (·.m_outputs)).map (·.outpoint)).Nodup :=
    distinct.sublist ((sublist.flatMap _).map _)
  exact within.perm ((perm.flatMap_right _).map _)

theorem GetSelectionAmount_of_asset {group : CoinGroup} {asset : CAsset} (other : asset ≠ policyAsset)
    (all : ∀ coin ∈ group.m_outputs, coin.asset = asset) :
    group.group.GetSelectionAmount policyAsset = valueOfAsset group.m_outputs asset := by
  have filtered : group.m_outputs.filter (·.asset == asset) = group.m_outputs :=
    List.filter_eq_self.mpr fun coin mem => by simp [all coin mem]
  rw [valueOfAsset, filtered, ← group.m_value_eq, OutputGroup.GetSelectionAmount, group.firstAsset_eq]
  cases outputs : group.m_outputs with
  | nil =>
      -- an empty group: its value and effective value are both zero
      have value : group.group.m_value = 0 := by rw [group.m_value_eq, outputs]; rfl
      have effective : group.group.effective_value = 0 := by rw [group.effective_value_eq, outputs]; rfl
      simp [value, effective]
  | cons first rest =>
      have firstAsset : first.asset = asset := all first (by rw [outputs]; exact List.mem_cons_self)
      simp [firstAsset, other]

theorem GetSelectionAmount_of_policy {group : CoinGroup} (kept : group.group.m_subtract_fee_outputs = false)
    (all : ∀ coin ∈ group.m_outputs, coin.asset = policyAsset) :
    group.group.GetSelectionAmount policyAsset = (group.m_outputs.map (·.effective_value)).sum := by
  rw [OutputGroup.GetSelectionAmount, group.firstAsset_eq, ← group.effective_value_eq, kept]
  cases outputs : group.m_outputs with
  | nil => simp
  | cons first rest =>
      have firstAsset : first.asset = policyAsset := all first (by rw [outputs]; exact List.mem_cons_self)
      simp [firstAsset]

section Eligible

variable {groups : List CoinGroup} (distinct : ((groups.flatMap (·.m_outputs)).map (·.outpoint)).Nodup)
  {result : SelectionResult} {asset : CAsset} {chosen : List CoinGroup}
  (sub : chosen.Subperm (groups.filter (eligibleFor result asset)))
include distinct sub

omit distinct in
theorem coins_of_eligible :
    ∀ coin ∈ chosen.flatMap (·.m_outputs), result.contains coin = false ∧ coin.asset = asset ∧ FromPool groups coin := by
  intro coin mem
  obtain ⟨group, chosenGroup, inGroup⟩ := List.mem_flatMap.mp mem
  obtain ⟨inPool, eligible⟩ := List.mem_filter.mp (sub.subset chosenGroup)
  have all : ∀ other ∈ group.m_outputs, result.contains other = false ∧ other.asset = asset := by
    intro other member
    have both := List.all_eq_true.mp eligible other member
    simpa only [Bool.and_eq_true, Bool.not_eq_true', beq_iff_eq] using both
  have fromPool : FromPool groups coin := by
    unfold FromPool
    exact ⟨group, inPool, inGroup, fun other member => (all other member).2.trans (all coin inGroup).2.symm⟩
  exact ⟨(all coin inGroup).1, (all coin inGroup).2, fromPool⟩

theorem AddInputs_of_eligible :
    (result.AddInputs (chosen.foldl SelectionResult.AddInput .empty)).m_selected_inputs =
      result.m_selected_inputs ++ chosen.flatMap (·.m_outputs) := by
  have nodup := nodup_flatMap_of_subperm (sub.trans List.filter_sublist.subperm) distinct
  have own : (chosen.foldl SelectionResult.AddInput .empty).m_selected_inputs = chosen.flatMap (·.m_outputs) :=
    SelectionResult.foldl_AddInput_of_fresh chosen .empty nodup
  rw [SelectionResult.AddInputs_of_fresh, own]
  rw [own, List.map_append]
  refine List.nodup_append.mpr ⟨result.nodup, nodup, fun a inResult b inChosen same => ?_⟩
  obtain ⟨coin, mem, rfl⟩ := List.mem_map.mp inChosen
  have fresh := (coins_of_eligible sub coin mem).1
  rw [SelectionResult.contains, List.any_eq_false] at fresh
  obtain ⟨other, otherMem, rfl⟩ := List.mem_map.mp inResult
  exact fresh other otherMem (by simp [same])

end Eligible

theorem valueOfAsset_of_ne {coins : List CInputCoin} {asset other : CAsset}
    (all : ∀ coin ∈ coins, coin.asset = asset) (different : other ≠ asset) : valueOfAsset coins other = 0 := by
  rw [valueOfAsset, List.filter_eq_nil_iff.mpr fun coin mem => by simp [all coin mem, Ne.symm different]]
  rfl

theorem sum_amounts_of_asset {chosen : List CoinGroup} {asset : CAsset} (other : asset ≠ policyAsset)
    (all : ∀ coin ∈ chosen.flatMap (·.m_outputs), coin.asset = asset) :
    (chosen.map (·.group.GetSelectionAmount policyAsset)).sum = valueOfAsset (chosen.flatMap (·.m_outputs)) asset := by
  induction chosen with
  | nil => rfl
  | cons group chosen ih =>
      rw [List.flatMap_cons] at all ⊢
      rw [List.map_cons, List.sum_cons, valueOfAsset_append,
        GetSelectionAmount_of_asset policyAsset other fun coin mem => all coin (List.mem_append_left _ mem),
        ih fun coin mem => all coin (List.mem_append_right _ mem)]

structure SolvedSoFar (groups : List CoinGroup) (targets : List (CAsset × CAmount)) (result : SelectionResult)
    (non_policy_effective_value : CAmount) : Prop where
  done : ∀ coin ∈ result.m_selected_inputs, coin.asset ∉ targets.map (·.1)
  not_policy : ∀ coin ∈ result.m_selected_inputs, coin.asset ≠ policyAsset
  from_pool : ∀ coin ∈ result.m_selected_inputs, FromPool groups coin
  sum_eq : non_policy_effective_value = (result.m_selected_inputs.map (·.effective_value)).sum

theorem valueOfAsset_eq_zero_of_solved {groups : List CoinGroup} {targets : List (CAsset × CAmount)}
    {result : SelectionResult} {nonPolicy : CAmount} (solved : SolvedSoFar policyAsset groups targets result nonPolicy)
    {asset : CAsset} (ahead : asset ∈ targets.map (·.1)) : valueOfAsset result.m_selected_inputs asset = 0 := by
  rw [valueOfAsset, List.filter_eq_nil_iff.mpr fun coin mem same => by
    have equal : coin.asset = asset := by simpa using same
    exact solved.done coin mem (equal ▸ ahead)]
  rfl

theorem solveAssets_spec {groups : List CoinGroup} (distinct : ((groups.flatMap (·.m_outputs)).map (·.outpoint)).Nodup) :
    ∀ (targets : List (CAsset × CAmount)) (result : SelectionResult) (nonPolicy : CAmount) (rng : FastRandomContext)
      (result' : SelectionResult) (nonPolicy' : CAmount) (rng' : FastRandomContext),
      solveAssets policyAsset groups targets result nonPolicy rng = some (result', nonPolicy', rng') →
      (targets.map (·.1)).Nodup → SolvedSoFar policyAsset groups targets result nonPolicy →
      SolvedSoFar policyAsset groups [] result' nonPolicy' ∧
        (∀ entry ∈ targets, entry.2 ≠ 0 → entry.1 ≠ policyAsset →
          entry.2 ≤ valueOfAsset result'.m_selected_inputs entry.1) ∧
        ∀ asset, asset ∉ targets.map (·.1) →
          valueOfAsset result'.m_selected_inputs asset = valueOfAsset result.m_selected_inputs asset
  | [], result, nonPolicy, rng, result', nonPolicy', rng', ran, _, solved => by
      cases ran
      exact ⟨solved, fun _ member => absurd member List.not_mem_nil, fun _ _ => rfl⟩
  | (asset, target) :: targets, result, nonPolicy, rng, result', nonPolicy', rng', ran, unique, solved => by
      rw [List.map_cons, List.nodup_cons] at unique
      have rest : SolvedSoFar policyAsset groups targets result nonPolicy :=
        ⟨fun coin mem ahead => solved.done coin mem (List.mem_cons_of_mem _ ahead), solved.not_policy,
          solved.from_pool, solved.sum_eq⟩
      rw [solveAssets] at ran
      dsimp only at ran
      split_ifs at ran with skipped
      · -- a zero target or the policy asset: nothing to do here
        obtain ⟨solved', covers, same⟩ := solveAssets_spec distinct targets result nonPolicy rng result' nonPolicy' rng' ran
          unique.2 rest
        refine ⟨solved', fun entry member nonzero other => ?_, fun other absent => same other fun ahead =>
          absent (by rw [List.map_cons]; exact List.mem_cons_of_mem _ ahead)⟩
        rcases List.mem_cons.mp member with rfl | later
        · exact absurd skipped (not_or.mpr ⟨nonzero, other⟩)
        · exact covers entry later nonzero other
      · rcases solvedAsset : KnapsackSolverAsset policyAsset (groups.filter (eligibleFor result asset)) target rng with
          ⟨_ | inner, rng₁⟩
        · rw [solvedAsset] at ran
          cases ran
        rw [solvedAsset] at ran
        obtain ⟨chosen, sub, reaches, rfl⟩ := KnapsackSolverAsset_spec policyAsset (by rw [solvedAsset])
        obtain ⟨nonzero, other⟩ := not_or.mp skipped
        have coins := coins_of_eligible sub
        have appended := AddInputs_of_eligible distinct sub
        have ownAsset : ∀ coin ∈ chosen.flatMap (·.m_outputs), coin.asset = asset := fun coin mem => (coins coin mem).2.1
        -- the selection with this asset's coins appended
        have next : SolvedSoFar policyAsset groups targets
            (result.AddInputs (chosen.foldl SelectionResult.AddInput .empty))
            (nonPolicy + ((chosen.foldl SelectionResult.AddInput .empty).m_selected_inputs.map (·.effective_value)).sum) := by
          have own := SelectionResult.foldl_AddInput_of_fresh chosen .empty
            (nodup_flatMap_of_subperm (sub.trans List.filter_sublist.subperm) distinct)
          refine ⟨?_, ?_, ?_, ?_⟩
          · rw [appended]
            intro coin mem
            rcases List.mem_append.mp mem with old | new
            · exact rest.done coin old
            · rw [ownAsset coin new]
              exact unique.1
          · rw [appended]
            intro coin mem
            rcases List.mem_append.mp mem with old | new
            · exact solved.not_policy coin old
            · rw [ownAsset coin new]
              exact other
          · rw [appended]
            intro coin mem
            rcases List.mem_append.mp mem with old | new
            · exact solved.from_pool coin old
            · exact (coins coin new).2.2
          · have empty : SelectionResult.empty.m_selected_inputs = [] := rfl
            rw [appended, own, empty, List.nil_append, solved.sum_eq, List.map_append, List.sum_append]
        obtain ⟨solved', covers, same⟩ := solveAssets_spec distinct targets _ _ rng₁ result' nonPolicy' rng' ran unique.2 next
        have valueHere : valueOfAsset (result.AddInputs (chosen.foldl SelectionResult.AddInput .empty)).m_selected_inputs
            asset = (chosen.map (·.group.GetSelectionAmount policyAsset)).sum := by
          rw [appended, valueOfAsset_append, valueOfAsset_eq_zero_of_solved policyAsset solved List.mem_cons_self,
            zero_add, sum_amounts_of_asset policyAsset other ownAsset]
        refine ⟨solved', fun entry member nonzero' other' => ?_, fun x absent => ?_⟩
        · rcases List.mem_cons.mp member with rfl | later
          · rw [same asset unique.1, valueHere]
            exact reaches
          · exact covers entry later nonzero' other'
        · have notHere : x ≠ asset := fun here => absent (here ▸ List.mem_cons_self)
          rw [same x fun ahead => absent (List.mem_cons_of_mem _ ahead), appended, valueOfAsset_append,
            valueOfAsset_of_ne ownAsset notHere, add_zero]

theorem sum_amounts_of_policy {chosen : List CoinGroup}
    (kept : ∀ group ∈ chosen, group.group.m_subtract_fee_outputs = false)
    (all : ∀ coin ∈ chosen.flatMap (·.m_outputs), coin.asset = policyAsset) :
    (chosen.map (·.group.GetSelectionAmount policyAsset)).sum =
      ((chosen.flatMap (·.m_outputs)).map (·.effective_value)).sum := by
  induction chosen with
  | nil => rfl
  | cons group chosen ih =>
      rw [List.flatMap_cons] at all ⊢
      rw [List.map_cons, List.sum_cons, List.map_append, List.sum_append,
        GetSelectionAmount_of_policy policyAsset (kept group List.mem_cons_self)
          fun coin mem => all coin (List.mem_append_left _ mem),
        ih (fun other mem => kept other (List.mem_cons_of_mem _ mem)) fun coin mem => all coin (List.mem_append_right _ mem)]

theorem solvePolicy_spec {groups : List CoinGroup} (distinct : ((groups.flatMap (·.m_outputs)).map (·.outpoint)).Nodup)
    (kept : ∀ group ∈ groups, group.group.m_subtract_fee_outputs = false) {result result₁ : SelectionResult}
    {policy_target : CAmount} {rng : FastRandomContext}
    (solved : solvePolicy policyAsset groups result policy_target rng = some result₁) :
    ∃ added : List CInputCoin, result₁.m_selected_inputs = result.m_selected_inputs ++ added ∧
      (∀ coin ∈ added, coin.asset = policyAsset ∧ FromPool groups coin) ∧
      policy_target ≤ (added.map (·.effective_value)).sum := by
  unfold solvePolicy at solved
  split_ifs at solved with positive
  · -- a positive target: the single-asset solver over the groups of the policy asset only
    dsimp only at solved
    split_ifs at solved
    obtain ⟨inner, ran, rfl⟩ := Option.map_eq_some_iff.mp solved
    obtain ⟨chosen, sub, reaches, rfl⟩ := KnapsackSolverAsset_spec policyAsset ran
    have coins := coins_of_eligible sub
    refine ⟨chosen.flatMap (·.m_outputs), AddInputs_of_eligible distinct sub,
      fun coin mem => ⟨(coins coin mem).2.1, (coins coin mem).2.2⟩, ?_⟩
    rw [← sum_amounts_of_policy policyAsset
      (fun group mem => kept group (List.mem_filter.mp (sub.subset mem)).1) fun coin mem => (coins coin mem).2.1]
    exact reaches
  · -- nothing to pay: the selection as it is
    rw [Option.some.injEq] at solved
    subst solved
    exact ⟨[], (List.append_nil _).symm, fun _ member => absurd member List.not_mem_nil, not_lt.mp positive⟩

theorem sum_effective_value_of_built {coins : List CInputCoin} {asset : CAsset}
    (built : ∀ coin ∈ coins, coin.effective_value = (if coin.asset = policyAsset then coin.value else 0) - coin.m_fee)
    (all : ∀ coin ∈ coins, coin.asset = asset) :
    (coins.map (·.effective_value)).sum =
      (if asset = policyAsset then valueOfAsset coins asset else 0) - (coins.map (·.m_fee)).sum := by
  induction coins with
  | nil => simp [valueOfAsset]
  | cons coin coins ih =>
      have head := built coin List.mem_cons_self
      have own := all coin List.mem_cons_self
      rw [List.map_cons, List.sum_cons, head, own,
        ih (fun other mem => built other (List.mem_cons_of_mem _ mem)) fun other mem => all other (List.mem_cons_of_mem _ mem)]
      split_ifs <;> simp [valueOfAsset, own] <;> ring

theorem knapsackSolver_covers (groups : List CoinGroup) (mapTargetValue : CAmountMap) (rng : FastRandomContext)
    (result : SelectionResult) (distinct : ((groups.flatMap (·.m_outputs)).map (·.outpoint)).Nodup)
    (built : ∀ group ∈ groups, group.group.m_subtract_fee_outputs = false ∧ ∀ coin ∈ group.m_outputs,
      coin.effective_value = (if coin.asset = policyAsset then coin.value else 0) - coin.m_fee)
    (fees : ∀ group ∈ groups, ∀ coin ∈ group.m_outputs, 0 ≤ coin.m_fee) (unique : mapTargetValue.KeysUnique)
    (returned : KnapsackSolver policyAsset groups mapTargetValue rng = some (some result)) :
    (result.m_selected_inputs.map (·.outpoint)).Nodup ∧
      (∀ coin ∈ result.m_selected_inputs, ∃ group ∈ groups, coin ∈ group.m_outputs ∧
        ∀ other ∈ group.m_outputs, other.asset = coin.asset) ∧
      (∀ asset, 0 < mapTargetValue.valueFor asset → mapTargetValue.valueFor asset ≤ result.GetSelectedValue.valueFor asset) ∧
      mapTargetValue.valueFor policyAsset + (result.m_selected_inputs.map (·.m_fee)).sum ≤
        result.GetSelectedValue.valueFor policyAsset := by
  unfold KnapsackSolver at returned
  rcases ran : solveAssets policyAsset groups mapTargetValue.entries .empty 0 rng with _ | ⟨result₀, nonPolicy, rng₁⟩
  · rw [ran] at returned
    cases returned
  rw [ran] at returned
  dsimp only at returned
  have initial : SolvedSoFar policyAsset groups mapTargetValue.entries .empty 0 :=
    ⟨fun _ member => absurd member List.not_mem_nil, fun _ member => absurd member List.not_mem_nil,
      fun _ member => absurd member List.not_mem_nil, rfl⟩
  obtain ⟨solved, covers, _⟩ := solveAssets_spec policyAsset distinct _ _ _ _ _ _ _ ran unique initial
  rcases found : mapTargetValue.entries.find? (·.1 == policyAsset) with _ | ⟨key, policyTargetValue⟩
  · rw [found] at returned
    cases returned
  rw [found] at returned
  dsimp only at returned
  rcases policySolved : solvePolicy policyAsset groups result₀ (policyTargetValue - nonPolicy) rng₁ with _ | result₁
  · rw [policySolved] at returned
    cases returned
  rw [policySolved] at returned
  dsimp only at returned
  split_ifs at returned with guard
  · exact absurd returned (by simp)
  rw [Option.some.injEq, Option.some.injEq] at returned
  subst result
  obtain ⟨added, appended, addedCoins, reaches⟩ :=
    solvePolicy_spec policyAsset distinct (fun group mem => (built group mem).1) policySolved
  have policyTarget : mapTargetValue.valueFor policyAsset = policyTargetValue := by
    have isKey : key = policyAsset := by simpa using List.find?_some found
    rw [← isKey]
    exact CAmountMap.valueFor_of_mem unique (List.mem_of_find?_eq_some found)
  have fromPool : ∀ coin ∈ result₁.m_selected_inputs, FromPool groups coin := by
    intro coin mem
    rw [appended] at mem
    rcases List.mem_append.mp mem with old | new
    · exact solved.from_pool coin old
    · exact (addedCoins coin new).2
  have coinBuilt : ∀ coin, FromPool groups coin →
      coin.effective_value = (if coin.asset = policyAsset then coin.value else 0) - coin.m_fee ∧ 0 ≤ coin.m_fee := by
    rintro coin ⟨group, inPool, inGroup, _⟩
    exact ⟨(built group inPool).2 coin inGroup, fees group inPool coin inGroup⟩
  -- the coins of the other assets pay their fees out of the policy target
  have nonPolicyEq : nonPolicy = -(result₀.m_selected_inputs.map (·.m_fee)).sum := by
    have each : ∀ coin ∈ result₀.m_selected_inputs, coin.effective_value = -coin.m_fee := fun coin mem => by
      rw [(coinBuilt coin (solved.from_pool coin mem)).1, if_neg (solved.not_policy coin mem), zero_sub]
    rw [solved.sum_eq, List.map_congr_left each, List.sum_neg, List.map_map]
    rfl
  have addedEffective : (added.map (·.effective_value)).sum =
      valueOfAsset added policyAsset - (added.map (·.m_fee)).sum := by
    rw [sum_effective_value_of_built policyAsset (fun coin mem => (coinBuilt coin (addedCoins coin mem).2).1)
      (fun coin mem => (addedCoins coin mem).1), if_pos rfl]
  have noPolicyYet : valueOfAsset result₀.m_selected_inputs policyAsset = 0 := by
    rw [valueOfAsset, List.filter_eq_nil_iff.mpr fun coin mem same =>
      solved.not_policy coin mem (by simpa using same)]
    rfl
  have policyCovered : mapTargetValue.valueFor policyAsset + (result₁.m_selected_inputs.map (·.m_fee)).sum ≤
      result₁.GetSelectedValue.valueFor policyAsset := by
    rw [valueFor_GetSelectedValue, appended, valueOfAsset_append, noPolicyYet, zero_add, List.map_append,
      List.sum_append, policyTarget]
    rw [nonPolicyEq, addedEffective] at reaches
    linarith
  refine ⟨result₁.nodup, fromPool, fun asset positive => ?_, policyCovered⟩
  by_cases isPolicy : asset = policyAsset
  · -- the policy asset: its target and the fees, which are not negative
    subst isPolicy
    have feesNonneg : 0 ≤ (result₁.m_selected_inputs.map (·.m_fee)).sum :=
      List.sum_nonneg fun fee mem => by
        obtain ⟨coin, inResult, rfl⟩ := List.mem_map.mp mem
        exact (coinBuilt coin (fromPool coin inResult)).2
    linarith
  · -- another asset: covered by its own solve
    have present : asset ∈ mapTargetValue.entries.map (·.1) := by
      by_contra absent
      rw [CAmountMap.valueFor_of_not_mem absent] at positive
      exact lt_irrefl 0 positive
    obtain ⟨entry, member, rfl⟩ := List.mem_map.mp present
    have target := CAmountMap.valueFor_of_mem unique member
    rw [target] at positive ⊢
    rw [valueFor_GetSelectedValue, appended, valueOfAsset_append,
      valueOfAsset_of_ne (fun coin mem => (addedCoins coin mem).1) isPolicy, add_zero]
    exact covers entry member (ne_of_gt positive) isPolicy

def otherAsset : CAsset := ⟨⟨List.replicate 32 1, rfl⟩⟩

def otherCoin : CInputCoin := ⟨⟨Uint256.zero, 0⟩, otherAsset, 5, 0, 0⟩

def policyCoin : CInputCoin := ⟨⟨Uint256.zero, 1⟩, default, 2000000, 2000000, 0⟩

def otherGroup : CoinGroup := ⟨⟨some otherAsset, 5, 0, 0, 0, false⟩, [otherCoin], rfl, rfl, rfl⟩

def policyGroup : CoinGroup := ⟨⟨some default, 2000000, 2000000, 0, 0, false⟩, [policyCoin], rfl, rfl, rfl⟩

theorem knapsackSolver_covers_two_assets :
    KnapsackSolver default [otherGroup, policyGroup] ⟨[(otherAsset, 5), (default, 1)]⟩ ⟨fun _ => 0, 0⟩ =
        some (some ⟨[otherCoin, policyCoin], by decide⟩) ∧
      (⟨[(otherAsset, 5), (default, 1)]⟩ : CAmountMap).valueFor otherAsset ≤
        (⟨[otherCoin, policyCoin], by decide⟩ : SelectionResult).GetSelectedValue.valueFor otherAsset := by
  have returned : KnapsackSolver default [otherGroup, policyGroup] ⟨[(otherAsset, 5), (default, 1)]⟩
      ⟨fun _ => 0, 0⟩ = some (some ⟨[otherCoin, policyCoin], by decide⟩) := by rfl
  exact ⟨returned, (knapsackSolver_covers default _ _ _ _ (by decide) (by decide) (by decide) (by decide)
    returned).2.2.1 otherAsset (by decide)⟩

/-- The same group twice in a pool built as `Insert` builds it: both copies are summed to the
target of their asset, the input set holds their coin once, and the policy coin's excess keeps
the final comparison from seeing the shortfall. -/
theorem knapsackSolver_repeated_group_falls_short :
    (∀ group ∈ [otherGroup, otherGroup, policyGroup], group.group.m_subtract_fee_outputs = false ∧
      ∀ coin ∈ group.m_outputs, coin.effective_value = (if coin.asset = default then coin.value else 0) - coin.m_fee) ∧
    (∀ group ∈ [otherGroup, otherGroup, policyGroup], ∀ coin ∈ group.m_outputs, 0 ≤ coin.m_fee) ∧
    (⟨[(otherAsset, 10), (default, 1)]⟩ : CAmountMap).KeysUnique ∧
    KnapsackSolver default [otherGroup, otherGroup, policyGroup] ⟨[(otherAsset, 10), (default, 1)]⟩
        ⟨fun _ => 0, 0⟩ = some (some ⟨[otherCoin, policyCoin], by decide⟩) ∧
      (⟨[otherCoin, policyCoin], by decide⟩ : SelectionResult).GetSelectedValue.valueFor otherAsset <
        (⟨[(otherAsset, 10), (default, 1)]⟩ : CAmountMap).valueFor otherAsset :=
  ⟨by decide, by decide, by decide, by rfl, by decide⟩

def negativeFeeCoin : CInputCoin := ⟨⟨Uint256.zero, 2⟩, default, 5, 10, -5⟩

def negativeFeeGroup : CoinGroup := ⟨⟨some default, 5, 10, -5, 0, false⟩, [negativeFeeCoin], rfl, rfl, rfl⟩

set_option maxRecDepth 20000 in
/-- A policy coin with a negative fee: its effective value reaches the policy target and is
selected, its value does not, and the other asset's excess keeps the final comparison of the
maps from seeing the shortfall. -/
theorem knapsackSolver_negative_fee_falls_short :
    (([otherGroup, negativeFeeGroup].flatMap (·.m_outputs)).map (·.outpoint)).Nodup ∧
    (∀ group ∈ [otherGroup, negativeFeeGroup], group.group.m_subtract_fee_outputs = false ∧
      ∀ coin ∈ group.m_outputs, coin.effective_value = (if coin.asset = default then coin.value else 0) - coin.m_fee) ∧
    negativeFeeCoin.m_fee < 0 ∧
    (⟨[(otherAsset, 4), (default, 10)]⟩ : CAmountMap).KeysUnique ∧
    KnapsackSolver default [otherGroup, negativeFeeGroup] ⟨[(otherAsset, 4), (default, 10)]⟩
        ⟨fun _ => 0, 0⟩ = some (some ⟨[otherCoin, negativeFeeCoin], by decide⟩) ∧
      (⟨[otherCoin, negativeFeeCoin], by decide⟩ : SelectionResult).GetSelectedValue.valueFor default <
        (⟨[(otherAsset, 4), (default, 10)]⟩ : CAmountMap).valueFor default :=
  ⟨by decide, by decide, by decide, by decide, by rfl, by decide⟩

end Elements
