import Elements.Wallet.CoinSelection
import Elements.Asset

/-! `KnapsackSolver` of `wallet/coinselection.cpp`. The single-asset solver shuffles the groups,
takes a group of exactly the target, or all the groups below `target + MIN_CHANGE` when they sum
to the target, or the least larger group when they fall short, and otherwise the better of that
group and the subset `ApproximateBestSubset` finds by random passes. The Elements solver over a
map of targets solves each asset other than the policy asset on the groups that hold only it,
adds the negative effective values of the coins chosen to the policy target, and solves the
policy asset last.

The draws of the `FastRandomContext`s the solvers make are read in order from one stream: every
run of the solvers is the run for some stream. -/

namespace Elements

/-- The fields of `CInputCoin` the solvers read. Coins are ordered and compared by outpoint. -/
structure CInputCoin where
  outpoint : COutPoint
  asset : CAsset
  value : CAmount
  effective_value : CAmount
  m_fee : CAmount
  deriving DecidableEq

/-- An `OutputGroup` with its coins `m_outputs`: its value and effective value are their sums and
its first asset that of its first coin, as `Insert` keeps them. -/
structure CoinGroup where
  group : OutputGroup
  m_outputs : List CInputCoin
  firstAsset_eq : group.firstAsset = m_outputs.head?.map (·.asset)
  m_value_eq : group.m_value = (m_outputs.map (·.value)).sum
  effective_value_eq : group.effective_value = (m_outputs.map (·.effective_value)).sum

def MIN_CHANGE : CAmount := COIN / 100

/-- The draws of the `FastRandomContext`s, one stream read from `pos` on. -/
structure FastRandomContext where
  draws : Nat → Nat
  pos : Nat

namespace FastRandomContext

/-- `randrange(range)`: a draw below `range`. -/
def randrange (rng : FastRandomContext) (range : Nat) : Nat × FastRandomContext :=
  (rng.draws rng.pos % range, ⟨rng.draws, rng.pos + 1⟩)

def randbool (rng : FastRandomContext) : Bool × FastRandomContext :=
  (rng.draws rng.pos % 2 == 1, ⟨rng.draws, rng.pos + 1⟩)

end FastRandomContext

/-- The loop of `Shuffle(first, last, rng)`: the first element swapped with the one `j` places on
for a draw `j` below the length, then the rest shuffled; `fuel` is the length. -/
def shuffleLoop {α : Type} : Nat → List α → FastRandomContext → List α × FastRandomContext
  | 0, items, rng => (items, rng)
  | _ + 1, [], rng => ([], rng)
  | fuel + 1, first :: rest, rng =>
      let (j, rng) := rng.randrange (rest.length + 1)
      if j = 0 then
        let (rest, rng) := shuffleLoop fuel rest rng
        (first :: rest, rng)
      else
        let (rest', rng) := shuffleLoop fuel (rest.set (j - 1) first) rng
        (rest.getD (j - 1) first :: rest', rng)

def Shuffle {α : Type} (items : List α) (rng : FastRandomContext) : List α × FastRandomContext :=
  shuffleLoop items.length items rng

/-- `SelectionResult`'s `m_selected_inputs`: a `std::set` of coins, which holds one coin of each
outpoint. The target it also keeps is not read by the solvers. -/
structure SelectionResult where
  m_selected_inputs : List CInputCoin
  nodup : (m_selected_inputs.map (·.outpoint)).Nodup

theorem nodup_outpoints_append {coins : List CInputCoin} (nodup : (coins.map (·.outpoint)).Nodup)
    {coin : CInputCoin} (absent : ¬ coins.any (·.outpoint == coin.outpoint) = true) :
    ((coins ++ [coin]).map (·.outpoint)).Nodup := by
  rw [List.map_append, List.map_singleton, ← List.concat_eq_append]
  refine List.Nodup.concat ?_ nodup
  simpa using absent

namespace SelectionResult

def empty : SelectionResult := ⟨[], List.nodup_nil⟩

def contains (result : SelectionResult) (coin : CInputCoin) : Bool :=
  result.m_selected_inputs.any (·.outpoint == coin.outpoint)

/-- `set.insert(coin)`: nothing where a coin of its outpoint is in. -/
def insert (result : SelectionResult) (coin : CInputCoin) : SelectionResult :=
  if present : result.contains coin = true then result
  else ⟨result.m_selected_inputs ++ [coin], nodup_outpoints_append result.nodup present⟩

/-- `AddInput(group)`: `util::insert(m_selected_inputs, group.m_outputs)`. -/
def AddInput (result : SelectionResult) (group : CoinGroup) : SelectionResult :=
  group.m_outputs.foldl insert result

/-- `AddInput(result)`: `util::insert(m_selected_inputs, result.GetInputSet())`. -/
def AddInputs (result other : SelectionResult) : SelectionResult :=
  other.m_selected_inputs.foldl insert result

/-- `GetSelectedValue()`: the values of the coins summed by asset. -/
def GetSelectedValue (result : SelectionResult) : CAmountMap :=
  result.m_selected_inputs.foldl (fun sum coin => sum.plus ⟨[(coin.asset, coin.value)]⟩) CAmountMap.empty

end SelectionResult

section Solver

variable (policyAsset : CAsset)

/-- The variables of `ApproximateBestSubset`'s loops. -/
structure SubsetSearch where
  vfIncluded : List Bool
  nTotal : CAmount
  fReachedTarget : Bool
  vfBest : List Bool
  nBest : CAmount
  rng : FastRandomContext

/-- The body of the inner loop at group `i` of pass `nPass`: the group is taken on a random draw in
the first pass and when not taken in the second; a total that reaches the target is recorded when
below the best and the group is put back. -/
def subsetVisit (amounts : List CAmount) (nTargetValue : CAmount) (nPass : Nat) (s : SubsetSearch) (i : Nat) :
    SubsetSearch :=
  let (taken, rng) := if nPass = 0 then s.rng.randbool else (!s.vfIncluded.getD i false, s.rng)
  if taken then
    let nTotal := s.nTotal + amounts.getD i 0
    let vfIncluded := s.vfIncluded.set i true
    if nTotal ≥ nTargetValue then
      let better := decide (nTotal < s.nBest)
      { vfIncluded := vfIncluded.set i false, nTotal := nTotal - amounts.getD i 0, fReachedTarget := true,
        vfBest := if better then vfIncluded else s.vfBest, nBest := if better then nTotal else s.nBest, rng }
    else { s with vfIncluded, nTotal, rng }
  else { s with rng }

def subsetPass (amounts : List CAmount) (nTargetValue : CAmount) (nPass : Nat) (s : SubsetSearch) : SubsetSearch :=
  (List.range amounts.length).foldl (subsetVisit amounts nTargetValue nPass) s

def subsetRep (amounts : List CAmount) (nTargetValue : CAmount) (s : SubsetSearch) : SubsetSearch :=
  let s := subsetPass amounts nTargetValue 0
    { s with vfIncluded := List.replicate amounts.length false, nTotal := 0, fReachedTarget := false }
  if s.fReachedTarget then s else subsetPass amounts nTargetValue 1 s

def subsetLoop (amounts : List CAmount) (nTargetValue : CAmount) : Nat → SubsetSearch → SubsetSearch
  | 0, s => s
  | iterations + 1, s => if s.nBest = nTargetValue then s else subsetLoop amounts nTargetValue iterations
      (subsetRep amounts nTargetValue s)

/-- `ApproximateBestSubset(groups, nTotalLower, nTargetValue, vfBest, nBest, iterations)`: the best
subset as flags over the groups, its total, and the stream after the draws. -/
def ApproximateBestSubset (groups : List CoinGroup) (nTotalLower nTargetValue : CAmount) (iterations : Nat)
    (rng : FastRandomContext) : List Bool × CAmount × FastRandomContext :=
  let amounts := groups.map (·.group.GetSelectionAmount policyAsset)
  let s := subsetLoop amounts nTargetValue iterations
    ⟨[], 0, false, List.replicate groups.length true, nTotalLower, rng⟩
  (s.vfBest, s.nBest, s.rng)

/-- The first loop of the single-asset solver: `inl` a group of exactly the target, else the least
larger group, the groups below `target + MIN_CHANGE` and their sum. -/
def knapsackScan (nTargetValue : CAmount) :
    List CoinGroup → Option CoinGroup → List CoinGroup → CAmount →
      CoinGroup ⊕ (Option CoinGroup × List CoinGroup × CAmount)
  | [], lowest_larger, applicable_groups, nTotalLower => .inr (lowest_larger, applicable_groups, nTotalLower)
  | group :: groups, lowest_larger, applicable_groups, nTotalLower =>
      let amount := group.group.GetSelectionAmount policyAsset
      if amount = nTargetValue then .inl group
      else if amount < nTargetValue + MIN_CHANGE then
        knapsackScan nTargetValue groups lowest_larger (applicable_groups ++ [group]) (nTotalLower + amount)
      else if lowest_larger.all fun larger => amount < larger.group.GetSelectionAmount policyAsset then
        knapsackScan nTargetValue groups (some group) applicable_groups nTotalLower
      else knapsackScan nTargetValue groups lowest_larger applicable_groups nTotalLower

def pickGroups (groups : List CoinGroup) (flags : List Bool) : List CoinGroup :=
  ((groups.zip flags).filter (·.2)).map (·.1)

/-- The stochastic approximation: a second run to `target + MIN_CHANGE` where the first missed the
target and the groups reach that. -/
def bestSubset (applicable_groups : List CoinGroup) (nTotalLower nTargetValue : CAmount) (rng : FastRandomContext) :
    List Bool × CAmount × FastRandomContext :=
  let (vfBest, nBest, rng) := ApproximateBestSubset policyAsset applicable_groups nTotalLower nTargetValue 1000 rng
  if nBest ≠ nTargetValue ∧ nTotalLower ≥ nTargetValue + MIN_CHANGE then
    ApproximateBestSubset policyAsset applicable_groups nTotalLower (nTargetValue + MIN_CHANGE) 1000 rng
  else (vfBest, nBest, rng)

def closerOf (nTargetValue : CAmount) (lowest_larger : Option CoinGroup) (applicable_groups : List CoinGroup)
    (vfBest : List Bool) (nBest : CAmount) : SelectionResult :=
  let best := (pickGroups applicable_groups vfBest).foldl SelectionResult.AddInput .empty
  match lowest_larger with
  | some larger =>
      if (nBest ≠ nTargetValue ∧ nBest < nTargetValue + MIN_CHANGE) ∨
          larger.group.GetSelectionAmount policyAsset ≤ nBest then
        SelectionResult.empty.AddInput larger
      else best
  | none => best

def knapsackApproximate (nTargetValue : CAmount) (lowest_larger : Option CoinGroup)
    (applicable_groups : List CoinGroup) (nTotalLower : CAmount) (rng : FastRandomContext) :
    SelectionResult × FastRandomContext :=
  let (vfBest, nBest, rng) := bestSubset policyAsset applicable_groups nTotalLower nTargetValue rng
  (closerOf policyAsset nTargetValue lowest_larger applicable_groups vfBest nBest, rng)

/-- `KnapsackSolver(groups, nTargetValue, asset)`, with the stream after its draws; the asset only
sets the result's target. `std::sort` leaves applicable groups of one amount in an order it does
not specify; insertion sort gives one of those orders, and the approximation's spec holds for any. -/
def KnapsackSolverAsset (groups : List CoinGroup) (nTargetValue : CAmount) (rng : FastRandomContext) :
    Option SelectionResult × FastRandomContext :=
  let (groups, rng) := Shuffle groups rng
  match knapsackScan policyAsset nTargetValue groups none [] 0 with
  | .inl group => (some (SelectionResult.empty.AddInput group), rng)
  | .inr (lowest_larger, applicable_groups, nTotalLower) =>
      if nTotalLower = nTargetValue then (some (applicable_groups.foldl SelectionResult.AddInput .empty), rng)
      else if nTotalLower < nTargetValue then
        match lowest_larger with
        | none => (none, rng)
        | some larger => (some (SelectionResult.empty.AddInput larger), rng)
      else
        let applicable_groups := applicable_groups.insertionSort fun a b =>
          a.group.GetSelectionAmount policyAsset ≥ b.group.GetSelectionAmount policyAsset
        let (result, rng) := knapsackApproximate policyAsset nTargetValue lowest_larger applicable_groups nTotalLower rng
        (some result, rng)

/-- The filter of the Elements solver: none of the group's coins is in the input set, and all of
them are of `asset`. -/
def eligibleFor (result : SelectionResult) (asset : CAsset) (group : CoinGroup) : Bool :=
  group.m_outputs.all fun coin => !result.contains coin && coin.asset == asset

/-- The loop over the targets of every asset but the policy asset, with the sum of the effective
values of the coins chosen; none where it returns `nullopt`. -/
def solveAssets (groups : List CoinGroup) :
    List (CAsset × CAmount) → SelectionResult → CAmount → FastRandomContext →
      Option (SelectionResult × CAmount × FastRandomContext)
  | [], result, non_policy_effective_value, rng => some (result, non_policy_effective_value, rng)
  | (asset, target) :: targets, result, non_policy_effective_value, rng =>
      if target = 0 ∨ asset = policyAsset then solveAssets groups targets result non_policy_effective_value rng
      else
        let inner_groups := groups.filter (eligibleFor result asset)
        if inner_groups.length = 0 then none
        else
          match KnapsackSolverAsset policyAsset inner_groups target rng with
          | (some inner_result, rng) =>
              solveAssets groups targets (result.AddInputs inner_result)
                (non_policy_effective_value + (inner_result.m_selected_inputs.map (·.effective_value)).sum) rng
          | (none, _) => none

/-- The solve for the policy asset, to `policy_target` when it is positive; none where it returns
`nullopt`. -/
def solvePolicy (groups : List CoinGroup) (result : SelectionResult) (policy_target : CAmount)
    (rng : FastRandomContext) : Option SelectionResult :=
  if policy_target > 0 then
    let inner_groups := groups.filter (eligibleFor result policyAsset)
    if inner_groups.length = 0 then none
    else (KnapsackSolverAsset policyAsset inner_groups policy_target rng).1.map result.AddInputs
  else some result

/-- `KnapsackSolver(groups, mapTargetValue)`: `some none` is `nullopt`, and `none` the throw of
`mapTargetValue.at(::policyAsset)` for a map without the policy asset. The map's entries are
taken in their order. -/
def KnapsackSolver (groups : List CoinGroup) (mapTargetValue : CAmountMap) (rng : FastRandomContext) :
    Option (Option SelectionResult) :=
  match solveAssets policyAsset groups mapTargetValue.entries .empty 0 rng with
  | none => some none
  | some (result, non_policy_effective_value, rng) =>
      match mapTargetValue.entries.find? (·.1 == policyAsset) with
      | none => none
      | some (_, policyTargetValue) =>
          match solvePolicy policyAsset groups result (policyTargetValue - non_policy_effective_value) rng with
          | none => some none
          | some result => if result.GetSelectedValue.lt mapTargetValue then some none else some (some result)

end Solver

end Elements
