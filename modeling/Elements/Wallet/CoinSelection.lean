import Elements.Primitives.Transaction
import Mathlib.Data.List.Sort

/-! `wallet/coinselection.cpp`: the branch-and-bound search `SelectCoinsBnB`. It walks the tree of
include/omit choices over the groups sorted by selection amount, largest first, backtracking when
the selected value cannot reach the target or overshoots the window above it, and keeps the
selection of least waste it meets inside the window. The search's `vector<bool>` is a list with
the latest choice first. -/

namespace Elements

/-- The fields of an `OutputGroup` the selection reads: the asset of its first coin (none for an
empty group), its value, effective value and the two fees. -/
structure OutputGroup where
  firstAsset : Option CAsset
  m_value : CAmount
  effective_value : CAmount
  fee : CAmount
  long_term_fee : CAmount
  m_subtract_fee_outputs : Bool
  deriving DecidableEq

instance : Inhabited OutputGroup := ⟨⟨none, 0, 0, 0, 0, false⟩⟩

namespace OutputGroup

variable (policyAsset : CAsset)

/-- `GetSelectionAmount`: a group of another asset counts its value, a policy-asset group its
effective value unless fees come out of the outputs. -/
def GetSelectionAmount (group : OutputGroup) : CAmount :=
  if group.firstAsset.any (· != policyAsset) then group.m_value
  else if group.m_subtract_fee_outputs then group.m_value
  else group.effective_value

/-- What spending the group now costs over spending it later, `fee - long_term_fee`. -/
def feeGain (group : OutputGroup) : CAmount := group.fee - group.long_term_fee

end OutputGroup

def TOTAL_TRIES : Nat := 100000

structure BnBState where
  curr_value : CAmount
  curr_available_value : CAmount
  curr_waste : CAmount
  curr_selection : List Bool
  best_selection : List Bool
  best_waste : CAmount
  deriving DecidableEq

section Search

variable (policyAsset : CAsset) (utxo_pool : List OutputGroup)

/-- The walk back of a backtrack: the omitted choices at the back are popped, their groups'
amounts returned to `curr_available_value`. `none` where `utxo_pool.at` throws. -/
def popOmitted : List Bool → CAmount → Option (List Bool × CAmount)
  | false :: rest, curr_available_value => do
      let utxo ← utxo_pool[rest.length]?
      popOmitted rest (curr_available_value + utxo.GetSelectionAmount policyAsset)
  | curr_selection, curr_available_value => some (curr_selection, curr_available_value)

/-- Backtracking: walk back to the last inclusion and omit it instead; `true` (break) when no
inclusion is left, the whole tree searched. -/
def backtrack (s : BnBState) : Option (Bool × BnBState) := do
  let (curr_selection, curr_available_value) ←
    popOmitted policyAsset utxo_pool s.curr_selection s.curr_available_value
  match curr_selection with
  | [] => pure (true, { s with curr_selection, curr_available_value })
  | _ :: rest =>
      let utxo ← utxo_pool[rest.length]?
      pure (false, { s with
        curr_selection := false :: rest
        curr_available_value
        curr_value := s.curr_value - utxo.GetSelectionAmount policyAsset
        curr_waste := s.curr_waste - utxo.feeGain })

def moveForward (s : BnBState) : Option BnBState := do
  let utxo ← utxo_pool[s.curr_selection.length]?
  let curr_available_value := s.curr_available_value - utxo.GetSelectionAmount policyAsset
  let equivalent ←
    match s.curr_selection with
    | false :: rest => do
        let previous ← utxo_pool[rest.length]?
        pure (utxo.GetSelectionAmount policyAsset == previous.GetSelectionAmount policyAsset &&
          utxo.fee == previous.fee)
    | _ => pure false
  if equivalent then pure { s with curr_available_value, curr_selection := false :: s.curr_selection }
  else
    pure { s with
      curr_available_value
      curr_selection := true :: s.curr_selection
      curr_value := s.curr_value + utxo.GetSelectionAmount policyAsset
      curr_waste := s.curr_waste + utxo.feeGain }

variable (selection_target cost_of_change : CAmount)

/-- The conditions for starting a backtrack: the target is out of reach, the value is past the
window, or the waste has grown past the best while spending now costs more than later, for which
`utxo_pool.at(0)` is read. -/
def startsBacktrack (s : BnBState) : Option Bool :=
  if s.curr_value + s.curr_available_value < selection_target ∨
      s.curr_value > selection_target + cost_of_change then some true
  else if s.curr_waste > s.best_waste then utxo_pool[0]?.map fun first => decide (first.feeGain > 0)
  else some false

def recordInRange (s : BnBState) : Option (Bool × BnBState) :=
  let curr_waste := s.curr_waste + (s.curr_value - selection_target)
  if curr_waste ≤ s.best_waste then
    let s := { s with best_selection := resize s.curr_selection.reverse utxo_pool.length, best_waste := curr_waste }
    if s.best_waste = 0 then some (true, s) else backtrack policyAsset utxo_pool s
  else backtrack policyAsset utxo_pool s

/-- One pass of the depth-first loop; `true` for a `break`. -/
def bnbStep (s : BnBState) : Option (Bool × BnBState) := do
  let prune ← startsBacktrack utxo_pool selection_target cost_of_change s
  if prune then backtrack policyAsset utxo_pool s
  else if s.curr_value ≥ selection_target then recordInRange policyAsset utxo_pool selection_target s
  else (moveForward policyAsset utxo_pool s).map fun s => (false, s)

/-- The loop, for at most `tries` passes. -/
def bnbLoop : Nat → BnBState → Option BnBState
  | 0, s => some s
  | tries + 1, s => do
      let (stop, s) ← bnbStep policyAsset utxo_pool selection_target cost_of_change s
      if stop then pure s else bnbLoop tries s

def bnbVisited : Nat → BnBState → List (List Bool)
  | 0, _ => []
  | tries + 1, s =>
      s.curr_selection.reverse ::
        match bnbStep policyAsset utxo_pool selection_target cost_of_change s with
        | some (false, s) => bnbVisited tries s
        | _ => []

end Search

/-- The groups a mask selects: `result.AddInput(utxo_pool.at(i))` for each set flag. -/
def pick : List OutputGroup → List Bool → List OutputGroup
  | utxo :: utxos, selected :: rest => if selected then utxo :: pick utxos rest else pick utxos rest
  | _, _ => []

section Select

variable (policyAsset : CAsset)

/-- The pool in the order the search walks it, by selection amount, largest first. `std::sort` is
not stable and leaves groups of one amount in an order it does not specify: this is one of those
orders, and what is proved of the search below holds for any order of the pool. -/
def sortedPool (utxo_pool : List OutputGroup) : List OutputGroup :=
  utxo_pool.insertionSort fun a b => a.GetSelectionAmount policyAsset ≥ b.GetSelectionAmount policyAsset

def availableValue (utxo_pool : List OutputGroup) : CAmount := (utxo_pool.map (·.GetSelectionAmount policyAsset)).sum

def bnbInitial (curr_available_value : CAmount) : BnBState := ⟨0, curr_available_value, 0, [], [], MAX_MONEY⟩

/-- What `SelectCoinsBnB` does once the pool is sorted: the search, then the groups of its best
selection, or `nullopt` when it recorded none. -/
def bnbSearch (utxo_pool : List OutputGroup) (selection_target cost_of_change curr_available_value : CAmount) :
    Option (Option (List OutputGroup)) :=
  match bnbLoop policyAsset utxo_pool selection_target cost_of_change TOTAL_TRIES
      (bnbInitial curr_available_value) with
  | none => none
  | some s => if s.best_selection.isEmpty then some none else some (some (pick utxo_pool s.best_selection))

/-- `SelectCoinsBnB(utxo_pool, selection_target, cost_of_change)`: the groups of the result, or
`nullopt`; the outer `none` is a failed assertion (a group that is not positive) or a throwing
`at`. -/
def SelectCoinsBnB (utxo_pool : List OutputGroup) (selection_target cost_of_change : CAmount) :
    Option (Option (List OutputGroup)) :=
  if utxo_pool.any (fun utxo => utxo.GetSelectionAmount policyAsset ≤ 0) then none
  else
    let curr_available_value := availableValue policyAsset utxo_pool
    if curr_available_value < selection_target then some none
    else bnbSearch policyAsset (sortedPool policyAsset utxo_pool) selection_target cost_of_change curr_available_value

def BnBVisited (utxo_pool : List OutputGroup) (selection_target cost_of_change : CAmount) : List (List Bool) :=
  bnbVisited policyAsset (sortedPool policyAsset utxo_pool) selection_target cost_of_change TOTAL_TRIES
    (bnbInitial (availableValue policyAsset utxo_pool))

end Select

@[simp] theorem pick_nil_right (utxo_pool : List OutputGroup) : pick utxo_pool [] = [] := by
  cases utxo_pool <;> rfl

@[simp] theorem pick_nil_left (mask : List Bool) : pick [] mask = [] := rfl

theorem pick_sublist : ∀ (utxo_pool : List OutputGroup) (mask : List Bool), List.Sublist (pick utxo_pool mask) utxo_pool
  | [], _ => by simp [pick]
  | utxo :: utxos, [] => by simp [pick]
  | utxo :: utxos, selected :: rest => by
      cases selected
      · exact (pick_sublist utxos rest).cons utxo
      · exact (pick_sublist utxos rest).cons_cons utxo

theorem pick_append_replicate_false : ∀ (utxo_pool : List OutputGroup) (mask : List Bool) (k : Nat),
    pick utxo_pool (mask ++ List.replicate k false) = pick utxo_pool mask
  | [], _, _ => by simp [pick]
  | utxo :: utxos, [], 0 => rfl
  | utxo :: utxos, [], k + 1 => by
      rw [List.nil_append, List.replicate_succ, pick, if_neg Bool.false_ne_true,
        ← List.nil_append (List.replicate k false), pick_append_replicate_false utxos [] k, pick_nil_right,
        pick_nil_right]
  | utxo :: utxos, selected :: rest, k => by
      rw [List.cons_append, pick, pick, pick_append_replicate_false utxos rest k]

theorem pick_append_singleton : ∀ (utxo_pool : List OutputGroup) (mask : List Bool) (selected : Bool),
    mask.length < utxo_pool.length →
      pick utxo_pool (mask ++ [selected]) =
        pick utxo_pool mask ++ if selected then [utxo_pool.getD mask.length default] else []
  | [], _, _, short => absurd short (Nat.not_lt_zero _)
  | utxo :: utxos, [], selected, _ => by cases selected <;> simp [pick]
  | utxo :: utxos, first :: rest, selected, short => by
      rw [List.cons_append, pick, pick,
        pick_append_singleton utxos rest selected (by simpa using short)]
      cases first <;> simp

section Invariant

variable (policyAsset : CAsset) (utxo_pool : List OutputGroup)

/-- The sum of `f` over the groups a search selection includes, latest choice first. -/
def chosenSum (f : OutputGroup → CAmount) : List Bool → CAmount
  | [] => 0
  | selected :: rest => chosenSum f rest + if selected then f (utxo_pool.getD rest.length default) else 0

/-- The amounts of the groups after the first `k`. -/
def remainingValue (k : Nat) : CAmount := ((utxo_pool.drop k).map (·.GetSelectionAmount policyAsset)).sum

variable {utxo_pool}

theorem chosenSum_eq_pick (f : OutputGroup → CAmount) :
    ∀ curr_selection : List Bool, curr_selection.length ≤ utxo_pool.length →
      chosenSum utxo_pool f curr_selection = ((pick utxo_pool curr_selection.reverse).map f).sum
  | [], _ => by simp [chosenSum]
  | selected :: rest, short => by
      rw [List.length_cons] at short
      have shorter : rest.reverse.length < utxo_pool.length := by rw [List.length_reverse]; omega
      rw [chosenSum, chosenSum_eq_pick f rest (by omega), List.reverse_cons,
        pick_append_singleton utxo_pool _ _ shorter, List.length_reverse]
      cases selected <;> simp

theorem remainingValue_of_lt {k : Nat} (inside : k < utxo_pool.length) :
    remainingValue policyAsset utxo_pool k =
      (utxo_pool.getD k default).GetSelectionAmount policyAsset + remainingValue policyAsset utxo_pool (k + 1) := by
  rw [remainingValue, List.drop_eq_getElem_cons inside, List.map_cons, List.sum_cons, remainingValue,
    List.getD_eq_getElem _ _ inside]

theorem remainingValue_of_le {k : Nat} (beyond : utxo_pool.length ≤ k) : remainingValue policyAsset utxo_pool k = 0 := by
  rw [remainingValue, List.drop_eq_nil_of_le beyond, List.map_nil, List.sum_nil]

theorem remainingValue_nonneg (positive : ∀ utxo ∈ utxo_pool, 0 < utxo.GetSelectionAmount policyAsset) (k : Nat) :
    0 ≤ remainingValue policyAsset utxo_pool k := by
  apply List.sum_nonneg
  intro amount member
  obtain ⟨utxo, inPool, rfl⟩ := List.mem_map.mp member
  exact (positive utxo (List.mem_of_mem_drop inPool)).le

variable (utxo_pool) in
structure Tracks (s : BnBState) : Prop where
  length_le : s.curr_selection.length ≤ utxo_pool.length
  value : s.curr_value = chosenSum utxo_pool (·.GetSelectionAmount policyAsset) s.curr_selection
  available : s.curr_available_value = remainingValue policyAsset utxo_pool s.curr_selection.length
  waste : s.curr_waste = chosenSum utxo_pool OutputGroup.feeGain s.curr_selection

theorem Tracks.with_best {s : BnBState} (tracks : Tracks policyAsset utxo_pool s) (best_selection : List Bool)
    (best_waste : CAmount) : Tracks policyAsset utxo_pool { s with best_selection, best_waste } :=
  ⟨tracks.length_le, tracks.value, tracks.available, tracks.waste⟩

theorem popOmitted_spec : ∀ curr_selection : List Bool, curr_selection.length ≤ utxo_pool.length →
    ∃ kept, popOmitted policyAsset utxo_pool curr_selection
        (remainingValue policyAsset utxo_pool curr_selection.length) =
        some (kept, remainingValue policyAsset utxo_pool kept.length) ∧
      kept.length ≤ utxo_pool.length ∧ (∀ f, chosenSum utxo_pool f kept = chosenSum utxo_pool f curr_selection) ∧
      (kept = [] ∨ ∃ rest, kept = true :: rest)
  | [], _ => ⟨[], rfl, by simp, fun _ => rfl, .inl rfl⟩
  | true :: rest, short => ⟨true :: rest, rfl, short, fun _ => rfl, .inr ⟨rest, rfl⟩⟩
  | false :: rest, short => by
      rw [List.length_cons] at short
      have inside : rest.length < utxo_pool.length := by omega
      obtain ⟨kept, popped, fits, sums, shape⟩ := popOmitted_spec rest (by omega)
      refine ⟨kept, ?_, fits, fun f => by rw [sums f, chosenSum, if_neg Bool.false_ne_true, Int.add_zero], shape⟩
      rw [popOmitted, List.getElem?_eq_getElem inside, List.length_cons]
      simp only [Option.bind_eq_bind, Option.bind_some]
      rw [← List.getD_eq_getElem _ default inside, Int.add_comm, ← remainingValue_of_lt policyAsset inside, popped]

theorem backtrack_spec {s : BnBState} (tracks : Tracks policyAsset utxo_pool s) :
    ∃ stop s', backtrack policyAsset utxo_pool s = some (stop, s') ∧ Tracks policyAsset utxo_pool s' ∧
      s'.best_selection = s.best_selection ∧ s'.best_waste = s.best_waste := by
  obtain ⟨kept, popped, fits, sums, shape⟩ := popOmitted_spec policyAsset s.curr_selection tracks.length_le
  rw [← tracks.available] at popped
  rcases shape with rfl | ⟨rest, rfl⟩
  · -- every inclusion was popped: the search is over
    refine ⟨true, { s with curr_selection := [], curr_available_value := remainingValue policyAsset utxo_pool 0 },
      by simp [backtrack, popped], ⟨by simp, ?_, rfl, ?_⟩, rfl, rfl⟩
    · rw [tracks.value, ← sums]
    · rw [tracks.waste, ← sums]
  · -- the last inclusion becomes an omission
    have inside : rest.length < utxo_pool.length := by simpa using fits
    refine ⟨false, { s with
        curr_selection := false :: rest
        curr_available_value := remainingValue policyAsset utxo_pool (rest.length + 1)
        curr_value := s.curr_value - (utxo_pool.getD rest.length default).GetSelectionAmount policyAsset
        curr_waste := s.curr_waste - (utxo_pool.getD rest.length default).feeGain },
      ?_, ⟨fits, ?_, rfl, ?_⟩, rfl, rfl⟩
    · simp [backtrack, popped, List.getElem?_eq_getElem inside]
    · dsimp only
      rw [tracks.value, ← sums, chosenSum, chosenSum, if_pos rfl, if_neg Bool.false_ne_true, Int.add_zero,
        Int.add_sub_cancel]
    · dsimp only
      rw [tracks.waste, ← sums, chosenSum, chosenSum, if_pos rfl, if_neg Bool.false_ne_true, Int.add_zero,
        Int.add_sub_cancel]

theorem moveForward_cases {s : BnBState} (inside : s.curr_selection.length < utxo_pool.length) :
    moveForward policyAsset utxo_pool s = some { s with
        curr_available_value :=
          s.curr_available_value - (utxo_pool.getD s.curr_selection.length default).GetSelectionAmount policyAsset
        curr_selection := false :: s.curr_selection } ∨
    moveForward policyAsset utxo_pool s = some { s with
        curr_available_value :=
          s.curr_available_value - (utxo_pool.getD s.curr_selection.length default).GetSelectionAmount policyAsset
        curr_selection := true :: s.curr_selection
        curr_value := s.curr_value + (utxo_pool.getD s.curr_selection.length default).GetSelectionAmount policyAsset
        curr_waste := s.curr_waste + (utxo_pool.getD s.curr_selection.length default).feeGain } := by
  rw [moveForward, List.getElem?_eq_getElem inside, ← List.getD_eq_getElem _ default inside]
  simp only [Option.bind_eq_bind, Option.bind_some]
  split
  · rename_i rest shape
    have before : rest.length < utxo_pool.length := by
      rw [shape, List.length_cons] at inside
      omega
    rw [List.getElem?_eq_getElem before]
    simp only [Option.bind_some, Option.pure_def]
    split_ifs
    · exact .inl (by rw [shape])
    · exact .inr (by rw [shape])
  · right
    simp only [Option.pure_def, Option.bind_some, Bool.false_eq_true, if_false]

theorem moveForward_spec {s : BnBState} (tracks : Tracks policyAsset utxo_pool s)
    (inside : s.curr_selection.length < utxo_pool.length) :
    ∃ s', moveForward policyAsset utxo_pool s = some s' ∧ Tracks policyAsset utxo_pool s' ∧
      s'.best_selection = s.best_selection ∧ s'.best_waste = s.best_waste := by
  have available : s.curr_available_value -
      (utxo_pool.getD s.curr_selection.length default).GetSelectionAmount policyAsset =
      remainingValue policyAsset utxo_pool (s.curr_selection.length + 1) := by
    rw [tracks.available, remainingValue_of_lt policyAsset inside, add_sub_cancel_left]
  rcases moveForward_cases policyAsset inside with omitted | included
  · refine ⟨_, omitted, ⟨inside, ?_, available, ?_⟩, rfl, rfl⟩
    · rw [tracks.value, chosenSum, if_neg Bool.false_ne_true, Int.add_zero]
    · rw [tracks.waste, chosenSum, if_neg Bool.false_ne_true, Int.add_zero]
  · refine ⟨_, included, ⟨inside, ?_, available, ?_⟩, rfl, rfl⟩
    · rw [tracks.value, chosenSum, if_pos rfl]
    · rw [tracks.waste, chosenSum, if_pos rfl]

variable (selection_target cost_of_change : CAmount)

def InWindow (value : CAmount) : Prop := selection_target ≤ value ∧ value ≤ selection_target + cost_of_change

instance (value : CAmount) : Decidable (InWindow selection_target cost_of_change value) :=
  inferInstanceAs (Decidable (_ ∧ _))

variable (utxo_pool) in
def searchWaste (curr_selection : List Bool) : CAmount :=
  chosenSum utxo_pool OutputGroup.feeGain curr_selection +
    (chosenSum utxo_pool (·.GetSelectionAmount policyAsset) curr_selection - selection_target)

variable (utxo_pool) in
/-- The best is none yet, or a selection within range with its waste. -/
def BestRecorded (s : BnBState) : Prop :=
  (s.best_selection = [] ∧ s.best_waste = MAX_MONEY) ∨
    ∃ curr_selection : List Bool, curr_selection.length ≤ utxo_pool.length ∧
      s.best_selection = resize curr_selection.reverse utxo_pool.length ∧
      InWindow selection_target cost_of_change
        (chosenSum utxo_pool (·.GetSelectionAmount policyAsset) curr_selection) ∧
      s.best_waste = searchWaste policyAsset utxo_pool selection_target curr_selection

variable (utxo_pool) in
def StepOutcome (s s' : BnBState) : Prop :=
  (s'.best_selection = resize s.curr_selection.reverse utxo_pool.length ∧
      s'.best_waste = searchWaste policyAsset utxo_pool selection_target s.curr_selection ∧
      s'.best_waste ≤ s.best_waste ∧ InWindow selection_target cost_of_change s.curr_value) ∨
    (s'.best_selection = s.best_selection ∧ s'.best_waste = s.best_waste ∧
      (InWindow selection_target cost_of_change s.curr_value →
        s.best_waste < searchWaste policyAsset utxo_pool selection_target s.curr_selection))

theorem searchWaste_eq {s : BnBState} (tracks : Tracks policyAsset utxo_pool s) :
    searchWaste policyAsset utxo_pool selection_target s.curr_selection =
      s.curr_waste + (s.curr_value - selection_target) := by
  rw [searchWaste, tracks.waste, tracks.value]

theorem recordInRange_spec {s : BnBState} (tracks : Tracks policyAsset utxo_pool s)
    (inRange : InWindow selection_target cost_of_change s.curr_value) :
    ∃ stop s', recordInRange policyAsset utxo_pool selection_target s = some (stop, s') ∧
      Tracks policyAsset utxo_pool s' ∧ StepOutcome policyAsset utxo_pool selection_target cost_of_change s s' := by
  have waste := searchWaste_eq policyAsset selection_target tracks
  unfold recordInRange
  dsimp only
  split_ifs with better zero
  · exact ⟨true, _, rfl, (tracks.with_best policyAsset _ _), .inl ⟨rfl, waste.symm, better, inRange⟩⟩
  · obtain ⟨stop, s', back, tracks', same_selection, same_waste⟩ := backtrack_spec policyAsset (tracks.with_best policyAsset _ _)
    exact ⟨stop, s', back, tracks', .inl ⟨same_selection, by rw [same_waste, waste], by rw [same_waste]; exact better,
      inRange⟩⟩
  · obtain ⟨stop, s', back, tracks', same_selection, same_waste⟩ := backtrack_spec policyAsset tracks
    exact ⟨stop, s', back, tracks', .inr ⟨same_selection, same_waste, fun _ => by rw [waste]; exact lt_of_not_ge better⟩⟩

theorem waste_le_best_of_nil (empty : utxo_pool = []) {s : BnBState} (tracks : Tracks policyAsset utxo_pool s)
    (best : BestRecorded policyAsset utxo_pool selection_target cost_of_change s) : s.curr_waste ≤ s.best_waste := by
  subst empty
  have nothing : s.curr_selection = [] := List.eq_nil_of_length_eq_zero (Nat.le_zero.mp tracks.length_le)
  rw [tracks.waste, nothing, chosenSum]
  rcases best with ⟨-, maximal⟩ | ⟨selection, short, -, inRange, recorded⟩
  · rw [maximal]
    decide
  · obtain rfl : selection = [] := List.eq_nil_of_length_eq_zero (Nat.le_zero.mp short)
    rw [recorded, searchWaste, chosenSum, chosenSum]
    have low := inRange.1
    rw [chosenSum] at low
    unfold CAmount at *
    omega

theorem startsBacktrack_spec (positive : ∀ utxo ∈ utxo_pool, 0 < utxo.GetSelectionAmount policyAsset)
    {s : BnBState} (tracks : Tracks policyAsset utxo_pool s)
    (best : BestRecorded policyAsset utxo_pool selection_target cost_of_change s) :
    ∃ prune, startsBacktrack utxo_pool selection_target cost_of_change s = some prune ∧
      (prune = true → InWindow selection_target cost_of_change s.curr_value → s.best_waste < s.curr_waste) ∧
      (prune = false → selection_target ≤ s.curr_value + s.curr_available_value ∧
        s.curr_value ≤ selection_target + cost_of_change) := by
  have available := remainingValue_nonneg policyAsset positive s.curr_selection.length
  rw [← tracks.available] at available
  unfold startsBacktrack
  split_ifs with out grown
  · refine ⟨true, rfl, fun _ inRange => absurd out ?_, fun never => absurd never (by decide)⟩
    have := inRange.1
    have := inRange.2
    unfold CAmount at *
    omega
  · obtain ⟨first, rest, nonempty⟩ := List.exists_cons_of_ne_nil fun empty =>
      absurd (waste_le_best_of_nil policyAsset selection_target cost_of_change empty tracks best) (not_le.mpr grown)
    rw [nonempty, List.getElem?_cons_zero, Option.map_some]
    refine ⟨_, rfl, fun _ _ => grown, fun _ => ?_⟩
    unfold CAmount at *
    omega
  · refine ⟨false, rfl, fun never => absurd never Bool.false_ne_true, fun _ => ?_⟩
    unfold CAmount at *
    omega

theorem bnbStep_spec (positive : ∀ utxo ∈ utxo_pool, 0 < utxo.GetSelectionAmount policyAsset)
    {s : BnBState} (tracks : Tracks policyAsset utxo_pool s)
    (best : BestRecorded policyAsset utxo_pool selection_target cost_of_change s) :
    ∃ stop s', bnbStep policyAsset utxo_pool selection_target cost_of_change s = some (stop, s') ∧
      Tracks policyAsset utxo_pool s' ∧ StepOutcome policyAsset utxo_pool selection_target cost_of_change s s' := by
  obtain ⟨prune, pruned, whenPruned, whenKept⟩ :=
    startsBacktrack_spec policyAsset selection_target cost_of_change positive tracks best
  rw [bnbStep, pruned]
  simp only [Option.bind_eq_bind, Option.bind_some]
  cases prune with
  | true =>
      obtain ⟨stop, s', back, tracks', same_selection, same_waste⟩ := backtrack_spec policyAsset tracks
      refine ⟨stop, s', back, tracks', .inr ⟨same_selection, same_waste, fun inRange => ?_⟩⟩
      -- the excess is not negative, so the waste is past the best already
      have grown := whenPruned rfl inRange
      have excess := inRange.1
      rw [searchWaste_eq policyAsset selection_target tracks]
      unfold CAmount at *
      omega
  | false =>
      obtain ⟨reachable, notPast⟩ := whenKept rfl
      rw [if_neg Bool.false_ne_true]
      split_ifs with reached
      · exact recordInRange_spec policyAsset selection_target cost_of_change tracks ⟨reached, notPast⟩
      · -- short of the target but able to reach it: some group is left to decide
        have inside : s.curr_selection.length < utxo_pool.length := by
          by_contra beyond
          have noneLeft := remainingValue_of_le policyAsset (not_lt.mp beyond)
          rw [← tracks.available] at noneLeft
          unfold CAmount at *
          omega
        obtain ⟨s', forward, tracks', same_selection, same_waste⟩ := moveForward_spec policyAsset tracks inside
        exact ⟨false, s', by rw [forward, Option.map_some], tracks',
          .inr ⟨same_selection, same_waste, fun inRange => absurd inRange.1 reached⟩⟩

namespace StepOutcome

variable {policyAsset selection_target cost_of_change} {s s' : BnBState}
  (outcome : StepOutcome policyAsset utxo_pool selection_target cost_of_change s s')
include outcome

theorem best_waste_le : s'.best_waste ≤ s.best_waste := by
  rcases outcome with ⟨-, -, lower, -⟩ | ⟨-, same, -⟩
  · exact lower
  · exact same.le

theorem best_waste_le_of_inWindow (inRange : InWindow selection_target cost_of_change s.curr_value) :
    s'.best_waste ≤ searchWaste policyAsset utxo_pool selection_target s.curr_selection := by
  rcases outcome with ⟨-, recorded, -, -⟩ | ⟨-, same, more⟩
  · exact recorded.le
  · rw [same]
    exact (more inRange).le

theorem of_best_nil (nonempty : 0 < utxo_pool.length) (empty : s'.best_selection = []) :
    s.best_selection = [] ∧ s'.best_waste = s.best_waste ∧
      (InWindow selection_target cost_of_change s.curr_value →
        s.best_waste < searchWaste policyAsset utxo_pool selection_target s.curr_selection) := by
  rcases outcome with ⟨recorded, -, -, -⟩ | ⟨same, same_waste, more⟩
  · -- a recorded best has one flag for each group
    have full := congrArg List.length recorded
    simp only [empty, resize, List.length_nil, List.length_append, List.length_take, List.length_replicate] at full
    omega
  · exact ⟨same ▸ empty, same_waste, more⟩

theorem bestRecorded (tracks : Tracks policyAsset utxo_pool s)
    (best : BestRecorded policyAsset utxo_pool selection_target cost_of_change s) :
    BestRecorded policyAsset utxo_pool selection_target cost_of_change s' := by
  rcases outcome with ⟨recorded, waste, -, inRange⟩ | ⟨same, same_waste, -⟩
  · exact .inr ⟨s.curr_selection, tracks.length_le, recorded, tracks.value ▸ inRange, waste⟩
  · unfold BestRecorded
    rw [same, same_waste]
    exact best

end StepOutcome

variable (utxo_pool) in
def maskValue (mask : List Bool) : CAmount := ((pick utxo_pool mask).map (·.GetSelectionAmount policyAsset)).sum

variable (utxo_pool) in
def maskWaste (mask : List Bool) : CAmount :=
  ((pick utxo_pool mask).map OutputGroup.feeGain).sum + (maskValue policyAsset utxo_pool mask - selection_target)

theorem maskValue_reverse {s : BnBState} (tracks : Tracks policyAsset utxo_pool s) :
    maskValue policyAsset utxo_pool s.curr_selection.reverse = s.curr_value := by
  rw [maskValue, tracks.value, chosenSum_eq_pick _ _ tracks.length_le]

theorem maskWaste_reverse {s : BnBState} (tracks : Tracks policyAsset utxo_pool s) :
    maskWaste policyAsset utxo_pool selection_target s.curr_selection.reverse =
      searchWaste policyAsset utxo_pool selection_target s.curr_selection := by
  rw [maskWaste, maskValue_reverse policyAsset tracks, searchWaste, tracks.value,
    chosenSum_eq_pick _ _ tracks.length_le, chosenSum_eq_pick _ _ tracks.length_le]

theorem bnbLoop_spec (positive : ∀ utxo ∈ utxo_pool, 0 < utxo.GetSelectionAmount policyAsset) :
    ∀ (tries : Nat) (s : BnBState), Tracks policyAsset utxo_pool s →
      BestRecorded policyAsset utxo_pool selection_target cost_of_change s →
      ∃ s', bnbLoop policyAsset utxo_pool selection_target cost_of_change tries s = some s' ∧
        Tracks policyAsset utxo_pool s' ∧ BestRecorded policyAsset utxo_pool selection_target cost_of_change s' ∧
        s'.best_waste ≤ s.best_waste ∧
        (∀ mask ∈ bnbVisited policyAsset utxo_pool selection_target cost_of_change tries s,
          InWindow selection_target cost_of_change (maskValue policyAsset utxo_pool mask) →
            s'.best_waste ≤ maskWaste policyAsset utxo_pool selection_target mask) ∧
        (0 < utxo_pool.length → s'.best_selection = [] →
          s.best_selection = [] ∧ s'.best_waste = s.best_waste ∧
          ∀ mask ∈ bnbVisited policyAsset utxo_pool selection_target cost_of_change tries s,
            InWindow selection_target cost_of_change (maskValue policyAsset utxo_pool mask) →
              s.best_waste < maskWaste policyAsset utxo_pool selection_target mask) := by
  intro tries
  induction tries with
  | zero =>
      intro s tracks best
      refine ⟨s, rfl, tracks, best, le_rfl, fun _ visited => absurd visited List.not_mem_nil, fun _ empty => ?_⟩
      exact ⟨empty, rfl, fun _ visited => absurd visited List.not_mem_nil⟩
  | succ tries ih =>
      intro s tracks best
      obtain ⟨stop, s₁, step, tracks₁, outcome⟩ :=
        bnbStep_spec policyAsset selection_target cost_of_change positive tracks best
      have best₁ := outcome.bestRecorded tracks best
      -- the selection the pass stands on, read as a mask over the pool
      have value := maskValue_reverse policyAsset tracks
      have waste := maskWaste_reverse policyAsset selection_target tracks
      cases stop with
      | true =>
          have visited : bnbVisited policyAsset utxo_pool selection_target cost_of_change (tries + 1) s =
              [s.curr_selection.reverse] := by
            rw [bnbVisited, step]
          refine ⟨s₁, by rw [bnbLoop, step]; rfl, tracks₁, best₁, outcome.best_waste_le, ?_, ?_⟩
          · intro mask member inRange
            rw [visited, List.mem_singleton] at member
            subst member
            rw [waste]
            exact outcome.best_waste_le_of_inWindow (value ▸ inRange)
          · intro nonempty empty
            obtain ⟨before, same, more⟩ := outcome.of_best_nil nonempty empty
            refine ⟨before, same, fun mask member inRange => ?_⟩
            rw [visited, List.mem_singleton] at member
            subst member
            rw [waste]
            exact more (value ▸ inRange)
      | false =>
          have visited : bnbVisited policyAsset utxo_pool selection_target cost_of_change (tries + 1) s =
              s.curr_selection.reverse :: bnbVisited policyAsset utxo_pool selection_target cost_of_change tries s₁ := by
            rw [bnbVisited, step]
          obtain ⟨s', loop, tracks', best', lower, least, never⟩ := ih s₁ tracks₁ best₁
          refine ⟨s', by rw [bnbLoop, step]; exact loop, tracks', best', le_trans lower outcome.best_waste_le, ?_, ?_⟩
          · intro mask member inRange
            rw [visited, List.mem_cons] at member
            rcases member with rfl | later
            · rw [waste]
              exact le_trans lower (outcome.best_waste_le_of_inWindow (value ▸ inRange))
            · exact least mask later inRange
          · intro nonempty empty
            obtain ⟨empty₁, same', more'⟩ := never nonempty empty
            obtain ⟨before, same, more⟩ := outcome.of_best_nil nonempty empty₁
            refine ⟨before, same'.trans same, fun mask member inRange => ?_⟩
            rw [visited, List.mem_cons] at member
            rcases member with rfl | later
            · rw [waste]
              exact more (value ▸ inRange)
            · exact same ▸ more' mask later inRange

end Invariant

theorem pick_resize {utxo_pool : List OutputGroup} {mask : List Bool} (fits : mask.length ≤ utxo_pool.length) :
    pick utxo_pool (resize mask utxo_pool.length) = pick utxo_pool mask := by
  rw [resize, List.take_of_length_le fits]
  exact pick_append_replicate_false utxo_pool mask _

section Select

variable (policyAsset : CAsset) (utxo_pool : List OutputGroup) (selection_target cost_of_change : CAmount)

theorem perm_sortedPool : (sortedPool policyAsset utxo_pool).Perm utxo_pool := List.perm_insertionSort _ _

section Search

variable {utxo_pool} {sorted : List OutputGroup}

theorem bnbInitial_tracks (perm : sorted.Perm utxo_pool) :
    Tracks policyAsset sorted (bnbInitial (availableValue policyAsset utxo_pool)) := by
  refine ⟨Nat.zero_le _, rfl, ?_, rfl⟩
  rw [bnbInitial, availableValue, remainingValue, List.length_nil, List.drop_zero]
  exact ((perm.map _).sum_eq).symm

theorem bnbInitial_best (curr_available_value : CAmount) :
    BestRecorded policyAsset sorted selection_target cost_of_change (bnbInitial curr_available_value) :=
  .inl ⟨rfl, rfl⟩

theorem bnbSearch_window (perm : sorted.Perm utxo_pool)
    (positive : ∀ utxo ∈ utxo_pool, 0 < utxo.GetSelectionAmount policyAsset) :
    ∃ result, bnbSearch policyAsset sorted selection_target cost_of_change
        (availableValue policyAsset utxo_pool) = some result ∧
      (∀ selected, result = some selected →
        selected.Subperm utxo_pool ∧
        InWindow selection_target cost_of_change ((selected.map (·.GetSelectionAmount policyAsset)).sum) ∧
        ∀ mask ∈ bnbVisited policyAsset sorted selection_target cost_of_change TOTAL_TRIES
            (bnbInitial (availableValue policyAsset utxo_pool)),
          InWindow selection_target cost_of_change (maskValue policyAsset sorted mask) →
            (selected.map OutputGroup.feeGain).sum +
                ((selected.map (·.GetSelectionAmount policyAsset)).sum - selection_target) ≤
              maskWaste policyAsset sorted selection_target mask) ∧
      (result = none → utxo_pool = [] ∨
        ∀ mask ∈ bnbVisited policyAsset sorted selection_target cost_of_change TOTAL_TRIES
            (bnbInitial (availableValue policyAsset utxo_pool)),
          InWindow selection_target cost_of_change (maskValue policyAsset sorted mask) →
            MAX_MONEY < maskWaste policyAsset sorted selection_target mask) := by
  have sortedPositive : ∀ utxo ∈ sorted, 0 < utxo.GetSelectionAmount policyAsset :=
    fun utxo member => positive utxo (perm.mem_iff.mp member)
  obtain ⟨s, loop, tracks, best, -, least, never⟩ :=
    bnbLoop_spec policyAsset selection_target cost_of_change sortedPositive TOTAL_TRIES _
      (bnbInitial_tracks policyAsset perm) (bnbInitial_best policyAsset selection_target cost_of_change _)
  unfold bnbSearch
  rw [loop]
  dsimp only
  split_ifs with empty
  · refine ⟨none, rfl, fun _ never => absurd never (by simp), fun _ => ?_⟩
    by_cases nothing : utxo_pool = []
    · exact .inl nothing
    · have nonempty : 0 < sorted.length := by
        rw [perm.length_eq]
        exact List.length_pos_iff_ne_nil.mpr nothing
      exact .inr (never nonempty (List.isEmpty_iff.mp empty)).2.2
  · rcases best with ⟨none_yet, -⟩ | ⟨selection, fits, recorded, inRange, waste⟩
    · exact absurd (List.isEmpty_iff.mpr none_yet) empty
    · have picked : pick sorted s.best_selection = pick sorted selection.reverse := by
        rw [recorded, pick_resize (by rw [List.length_reverse]; exact fits)]
      refine ⟨_, rfl, fun selected same => ?_, fun never => absurd never (by simp)⟩
      obtain rfl := Option.some.inj same
      rw [picked]
      refine ⟨((pick_sublist _ _).subperm).trans perm.subperm, ?_, fun mask member inRange' => ?_⟩
      · rwa [← chosenSum_eq_pick _ _ fits]
      · rw [← chosenSum_eq_pick _ _ fits, ← chosenSum_eq_pick _ _ fits, ← searchWaste, ← waste]
        exact least mask member inRange'

end Search

/-- What `SelectCoinsBnB` returns on a pool of positive groups: no abort; a selection of distinct
groups of the pool within the window and no more wasteful than any selection within the window
the search visited; or nothing, when the pool falls short of the target, is empty, or every
visited selection within the window wastes more than `MAX_MONEY`. -/
theorem selectCoinsBnB_window (positive : ∀ utxo ∈ utxo_pool, 0 < utxo.GetSelectionAmount policyAsset) :
    ∃ result, SelectCoinsBnB policyAsset utxo_pool selection_target cost_of_change = some result ∧
      (∀ selected, result = some selected →
        selected.Subperm utxo_pool ∧
        InWindow selection_target cost_of_change ((selected.map (·.GetSelectionAmount policyAsset)).sum) ∧
        ∀ mask ∈ BnBVisited policyAsset utxo_pool selection_target cost_of_change,
          InWindow selection_target cost_of_change (maskValue policyAsset (sortedPool policyAsset utxo_pool) mask) →
            (selected.map OutputGroup.feeGain).sum +
                ((selected.map (·.GetSelectionAmount policyAsset)).sum - selection_target) ≤
              maskWaste policyAsset (sortedPool policyAsset utxo_pool) selection_target mask) ∧
      (result = none →
        availableValue policyAsset utxo_pool < selection_target ∨ utxo_pool = [] ∨
        ∀ mask ∈ BnBVisited policyAsset utxo_pool selection_target cost_of_change,
          InWindow selection_target cost_of_change (maskValue policyAsset (sortedPool policyAsset utxo_pool) mask) →
            MAX_MONEY < maskWaste policyAsset (sortedPool policyAsset utxo_pool) selection_target mask) := by
  have asserted : utxo_pool.any (fun utxo => utxo.GetSelectionAmount policyAsset ≤ 0) = false := by
    rw [List.any_eq_false]
    intro utxo member
    simpa using positive utxo member
  unfold SelectCoinsBnB
  rw [if_neg (by rw [asserted]; exact Bool.false_ne_true)]
  dsimp only
  split_ifs with short
  · exact ⟨none, rfl, fun _ never => absurd never (by simp), fun _ => .inl short⟩
  · -- the pool reaches the target: the search over the sorted pool
    obtain ⟨result, search, found, missed⟩ :=
      bnbSearch_window policyAsset selection_target cost_of_change (perm_sortedPool policyAsset utxo_pool) positive
    exact ⟨result, search, found, fun nothing => .inr (missed nothing)⟩

theorem selectCoinsBnB_window_three :
    ∃ result, SelectCoinsBnB default
      [⟨none, 1, 1, 0, 0, false⟩, ⟨none, 3, 3, 0, 0, false⟩, ⟨none, 2, 2, 0, 0, false⟩] 4 0 = some result :=
  (selectCoinsBnB_window default _ 4 0 (by decide)).imp fun _ found => found.1

end Select

/-- Two pools on which the search returns nothing though their total reaches the target and it
visits a selection within the window: the empty pool, whose recorded empty selection is resized to
nothing, and a group whose fee puts its waste past `MAX_MONEY`, which the waste check prunes. -/
theorem selectCoinsBnB_misses_window :
    (SelectCoinsBnB default [] 0 0 = some none ∧ ¬availableValue default [] < 0 ∧
      [] ∈ BnBVisited default [] 0 0 ∧ InWindow 0 0 (maskValue default (sortedPool default []) [])) ∧
    (SelectCoinsBnB default [⟨none, 1, 1, 10000000000000000, 0, false⟩] 1 0 = some none ∧
      ¬availableValue default [⟨none, 1, 1, 10000000000000000, 0, false⟩] < 1 ∧
      [true] ∈ BnBVisited default [⟨none, 1, 1, 10000000000000000, 0, false⟩] 1 0 ∧
      InWindow 1 0 (maskValue default (sortedPool default [⟨none, 1, 1, 10000000000000000, 0, false⟩]) [true])) := by
  decide +kernel
end Elements
