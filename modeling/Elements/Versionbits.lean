import Elements.Chain
import Elements.Control.Memo

/-! `versionbits.cpp`: the BIP9 deployment state machine. A deployment is DEFINED at genesis,
STARTED once its start is reached, LOCKED_IN after a period in which enough blocks signal, ACTIVE
from the minimum activation height on, or FAILED at its timeout; the state changes only at the
last block of a period of `Period` blocks, and ACTIVE and FAILED are final. In Elements mode the
start and the timeout are heights.

`GetStateFor` memoises the state by the last block of each period: it walks back a period at a
time to a block whose state it knows and replays the periods forward. From any cache that earlier
calls left, it returns the state the machine reaches stepping once per period along the ancestry
of the block. -/

namespace Elements

inductive ThresholdState
  | DEFINED
  | STARTED
  | LOCKED_IN
  | ACTIVE
  | FAILED
  deriving DecidableEq, Repr

open ThresholdState

def VERSIONBITS_TOP_BITS : Int32 := 0x20000000
def VERSIONBITS_TOP_MASK : Int32 := 0xE0000000
def VERSIONBITS_NUM_BITS : Nat := 29

/-- `Consensus::BIP9Deployment`. In Elements the start and the timeout are heights. -/
structure BIP9Deployment where
  bit : Nat
  nStartTime : Int
  nTimeout : Int
  min_activation_height : Int
  nPeriod : Option Nat
  nThreshold : Option Nat

namespace BIP9Deployment

def ALWAYS_ACTIVE : Int := -1
def NEVER_ACTIVE : Int := -2

end BIP9Deployment

inductive DeploymentPos
  | DEPLOYMENT_TESTDUMMY
  | DEPLOYMENT_TAPROOT
  | DEPLOYMENT_DYNA_FED
  | DEPLOYMENT_SIMPLICITY
  deriving DecidableEq, Repr

/-- The fields of `Consensus::Params` that versionbits reads. -/
structure VersionBitsParams where
  vDeployments : DeploymentPos → BIP9Deployment
  nRuleChangeActivationThreshold : Nat
  nMinerConfirmationWindow : Nat
  elements_mode : Bool

/-- The virtual functions of `AbstractThresholdConditionChecker`, for one deployment and chain. -/
structure ThresholdConditionChecker (B : Type) where
  Condition : B → Bool
  BeginTime : Int
  EndTime : Int
  MinActivationHeight : Int
  Period : Nat
  Threshold : Nat

def Mask (params : VersionBitsParams) (id : DeploymentPos) : UInt32 :=
  1 <<< UInt32.ofNat (params.vDeployments id).bit

/-- `VersionBitsConditionChecker(id)` over blocks with versions `nVersion`: a deployment's own
period and threshold where it has them, the chain's otherwise. -/
def VersionBitsConditionChecker {B : Type} (nVersion : B → Int32) (params : VersionBitsParams) (id : DeploymentPos) :
    ThresholdConditionChecker B where
  Condition pindex := (nVersion pindex &&& VERSIONBITS_TOP_MASK) == VERSIONBITS_TOP_BITS &&
    ((nVersion pindex).toUInt32 &&& Mask params id) != 0
  BeginTime := (params.vDeployments id).nStartTime
  EndTime := (params.vDeployments id).nTimeout
  MinActivationHeight := (params.vDeployments id).min_activation_height
  Period := (params.vDeployments id).nPeriod.getD params.nMinerConfirmationWindow
  Threshold := (params.vDeployments id).nThreshold.getD params.nRuleChangeActivationThreshold

/-- `GetBIP9Time`: the height in Elements mode, the median time past otherwise. -/
def GetBIP9Time {B : Type} (t : BlockTree B) (GetMedianTimePast : B → Int) (elements_mode : Bool) (pindexPrev : B) :
    Int :=
  if elements_mode then t.nHeight pindexPrev else GetMedianTimePast pindexPrev

/-- `ThresholdConditionCache`: states by the parent of the first block of a period, `none` for the
parent of genesis. -/
abbrev ThresholdConditionCache (B : Type) := Memo.Cache B ThresholdState

section GetStateFor

variable {B : Type} [DecidableEq B] (t : BlockTree B) (bip9Time : B → Int) (checker : ThresholdConditionChecker B)

/-- The count of the STARTED case: of `i` blocks down from `pindexCount` along `pprev`, those that
signal; none where it would read past genesis. -/
def countCondition : Nat → Option B → Option Nat
  | 0, _ => some 0
  | _ + 1, none => none
  | i + 1, some pindexCount =>
      (countCondition i (t.pprev pindexCount)).map (· + if checker.Condition pindexCount then 1 else 0)

/-- The `switch` of the forward walk: the state of the period after `pindexPrev`, from the state of
its own; none where the count fails. -/
def stateNext (pindexPrev : B) (state : ThresholdState) : Option ThresholdState :=
  match state with
  | DEFINED => some (if bip9Time pindexPrev ≥ checker.BeginTime then STARTED else DEFINED)
  | STARTED => do
      let count ← countCondition t checker checker.Period (some pindexPrev)
      if count ≥ checker.Threshold then some LOCKED_IN
      else if bip9Time pindexPrev ≥ checker.EndTime then some FAILED
      else some STARTED
  | LOCKED_IN => some (if t.nHeight pindexPrev + 1 ≥ checker.MinActivationHeight then ACTIVE else LOCKED_IN)
  | FAILED => some FAILED
  | ACTIVE => some ACTIVE

/-- The block a period back: `pindexPrev->GetAncestor(pindexPrev->nHeight - nPeriod)`. -/
def periodBack (pindexPrev : B) : Option B :=
  t.GetAncestor pindexPrev ((t.nHeight pindexPrev : Int) - checker.Period)

/-- The last block of the period before the one of the block after `pindexPrev`:
`pindexPrev->GetAncestor(pindexPrev->nHeight - ((pindexPrev->nHeight + 1) % nPeriod))`. -/
def periodStart (pindexPrev : B) : Option B :=
  t.GetAncestor pindexPrev ((t.nHeight pindexPrev : Int) - ((t.nHeight pindexPrev + 1) % checker.Period : Nat))

/-- `GetStateFor(pindexPrev, params, cache)`, with the cache it leaves; none is a failed assertion
or a null pointer read. The walk back, the cache read and the walk forward are `Memo.run`; the
walk stops early at a block before the start, whose state is DEFINED. Its fuel, the height plus
two, is more than the walk back ever takes. -/
def GetStateFor (pindexPrev : Option B) (cache : ThresholdConditionCache B) :
    Option (ThresholdState × ThresholdConditionCache B) :=
  let nTimeStart := checker.BeginTime
  if nTimeStart = BIP9Deployment.ALWAYS_ACTIVE then some (ACTIVE, cache)
  else if nTimeStart = BIP9Deployment.NEVER_ACTIVE then some (FAILED, cache)
  else
    let pindexPrev := pindexPrev.bind (periodStart t checker)
    Memo.run (periodBack t checker) (fun pindexPrev => decide (bip9Time pindexPrev < nTimeStart)) DEFINED
      (stateNext t bip9Time checker) (t.rank pindexPrev + 1) pindexPrev cache

/-- The loop of `GetStateSinceHeightFor`: a period back at a time while the period before has the
same state; the height of the first block of the last period reached. -/
def sinceLoop (initialState : ThresholdState) :
    Nat → B → Option B → ThresholdConditionCache B → Option (Int × ThresholdConditionCache B)
  | 0, _, _, _ => none
  | fuel + 1, pindexPrev, previousPeriodParent, cache =>
      match previousPeriodParent with
      | none => some (t.nHeight pindexPrev + 1, cache)
      | some parent => do
          let (state, cache) ← GetStateFor t bip9Time checker (some parent) cache
          if state = initialState then
            sinceLoop initialState fuel parent (periodBack t checker parent) cache
          else some (t.nHeight pindexPrev + 1, cache)

/-- `GetStateSinceHeightFor(pindexPrev, params, cache)`, with the cache it leaves; none is a null
pointer read. -/
def GetStateSinceHeightFor (pindexPrev : Option B) (cache : ThresholdConditionCache B) :
    Option (Int × ThresholdConditionCache B) := do
  let start_time := checker.BeginTime
  if start_time = BIP9Deployment.ALWAYS_ACTIVE ∨ start_time = BIP9Deployment.NEVER_ACTIVE then
    return (0, cache)
  let (initialState, cache) ← GetStateFor t bip9Time checker pindexPrev cache
  if initialState = DEFINED then return (0, cache)
  let pindexPrev ← pindexPrev
  let pindexPrev ← periodStart t checker pindexPrev
  let previousPeriodParent := periodBack t checker pindexPrev
  sinceLoop t bip9Time checker initialState (t.nHeight pindexPrev + 1) pindexPrev previousPeriodParent cache

/-- The caches that the calls for one deployment leave, from the empty one: `VersionBitsCache`
keeps one per deployment, which `State` and `StateSinceHeight` pass on. -/
inductive Reachable : ThresholdConditionCache B → Prop
  | empty : Reachable Memo.Cache.empty
  | state {cache cache' : ThresholdConditionCache B} {pindexPrev : Option B} {state : ThresholdState} :
      Reachable cache → GetStateFor t bip9Time checker pindexPrev cache = some (state, cache') → Reachable cache'
  | since {cache cache' : ThresholdConditionCache B} {pindexPrev : Option B} {height : Int} :
      Reachable cache → GetStateSinceHeightFor t bip9Time checker pindexPrev cache = some (height, cache') →
        Reachable cache'

end GetStateFor

section Machine

variable {B : Type} (T : Ancestry.Tree B) (time : B → Int) (checker : ThresholdConditionChecker B)

/-- Of the `Period` blocks of the period that ends at `e`, those that signal. -/
def signalling (e : B) : Nat := (T.pathUp e (checker.Period - 1)).countP checker.Condition

/-- The BIP9 machine's step at the last block `e` of a period. -/
def transition (e : B) : ThresholdState → ThresholdState
  | DEFINED => if time e ≥ checker.BeginTime then STARTED else DEFINED
  | STARTED =>
      if signalling T checker e ≥ checker.Threshold then LOCKED_IN
      else if time e ≥ checker.EndTime then FAILED
      else STARTED
  | LOCKED_IN => if T.depth e + 1 ≥ checker.MinActivationHeight then ACTIVE else LOCKED_IN
  | ACTIVE => ACTIVE
  | FAILED => FAILED

/-- The state of the blocks of period `k` along the ancestry of `x`: DEFINED in the first period,
and the machine stepped at the last block of every period before. -/
def periodState (x : B) : Nat → ThresholdState
  | 0 => DEFINED
  | k + 1 =>
      match T.walk x (T.depth x + 1 - (k + 1) * checker.Period) with
      | some e => transition T time checker e (periodState x k)
      | none => periodState x k

/-- The state of the block after `pindexPrev`: that of its period along the ancestry, or the state
a deployment always or never active has. -/
def BIP9State (pindexPrev : Option B) : ThresholdState :=
  if checker.BeginTime = BIP9Deployment.ALWAYS_ACTIVE then ACTIVE
  else if checker.BeginTime = BIP9Deployment.NEVER_ACTIVE then FAILED
  else
    match pindexPrev with
    | none => DEFINED
    | some x => periodState T time checker x ((T.depth x + 1) / checker.Period)

/-- The state of period `k` along the ancestry of `x`, for every deployment. -/
def BIP9PeriodState (x : B) (k : Nat) : ThresholdState :=
  if checker.BeginTime = BIP9Deployment.ALWAYS_ACTIVE then ACTIVE
  else if checker.BeginTime = BIP9Deployment.NEVER_ACTIVE then FAILED
  else periodState T time checker x k

/-- `j` starts the longest run of periods up to `m` that have the state of `m`. -/
def IsRunStart {α : Type} (states : Nat → α) (m j : Nat) : Prop :=
  j ≤ m ∧ (∀ i, j ≤ i → i ≤ m → states i = states m) ∧ (j = 0 ∨ states (j - 1) ≠ states m)

end Machine

open Ancestry

section Machine

variable {B : Type} (T : Ancestry.Tree B) (time : B → Int) (checker : ThresholdConditionChecker B)

def stateAfter : Option B → ThresholdState
  | none => DEFINED
  | some e => periodState T time checker e ((T.depth e + 1) / checker.Period)

theorem transition_of_final (e : B) {state : ThresholdState} (final : state = ACTIVE ∨ state = FAILED) :
    transition T time checker e state = state := by
  rcases final with rfl | rfl <;> rfl

theorem eq_DEFINED_of_transition {e : B} {state : ThresholdState}
    (defined : transition T time checker e state = DEFINED) : state = DEFINED := by
  cases state with
  | DEFINED => rfl
  | STARTED =>
      simp only [transition] at defined
      split_ifs at defined
  | LOCKED_IN =>
      simp only [transition] at defined
      split_ifs at defined
  | ACTIVE => cases defined
  | FAILED => cases defined

variable {T time checker}

theorem periodState_of_walk {x y : B} {i : Nat} (reach : T.walk x i = some y) :
    ∀ k, k * checker.Period ≤ T.depth y + 1 → periodState T time checker x k = periodState T time checker y k
  | 0, _ => rfl
  | k + 1, within => by
      have moved := Tree.depth_walk reach
      have earlier : k * checker.Period ≤ (k + 1) * checker.Period := Nat.mul_le_mul_right _ (Nat.le_succ k)
      have shift : T.depth x + 1 - (k + 1) * checker.Period = i + (T.depth y + 1 - (k + 1) * checker.Period) := by
        omega
      rw [periodState, periodState, shift, Tree.walk_add_of_walk reach,
        periodState_of_walk reach k (by omega)]

end Machine

section Machine

variable {B : Type} {T : Ancestry.Tree B} {time : B → Int} {checker : ThresholdConditionChecker B}

theorem periodState_last {e : B} {m : Nat} (ends : (m + 1) * checker.Period = T.depth e + 1) :
    periodState T time checker e (m + 1) = transition T time checker e (periodState T time checker e m) := by
  rw [periodState, show T.depth e + 1 - (m + 1) * checker.Period = 0 by omega, Tree.walk_zero]

theorem periodState_of_lt_start (monotone : ∀ a p, T.parent a = some p → time p ≤ time a) {e : B}
    (early : time e < checker.BeginTime) : ∀ k, periodState T time checker e k = DEFINED
  | 0 => rfl
  | k + 1 => by
      rw [periodState]
      split
      · next ancestor reach =>
          have before := Tree.le_of_walk monotone reach
          rw [periodState_of_lt_start monotone early k, transition, if_neg (by omega)]
      · exact periodState_of_lt_start monotone early k

theorem periodState_of_final {x : B} {k : Nat}
    (final : periodState T time checker x k = ACTIVE ∨ periodState T time checker x k = FAILED) {l : Nat}
    (later : k ≤ l) : periodState T time checker x l = periodState T time checker x k := by
  induction l, later using Nat.le_induction with
  | base => rfl
  | succ l _ ih =>
      rw [periodState]
      split
      · rw [ih]
        exact transition_of_final T time checker _ final
      · exact ih

theorem periodState_of_DEFINED {x : B} {l : Nat} (defined : periodState T time checker x l = DEFINED) {k : Nat}
    (earlier : k ≤ l) : periodState T time checker x k = DEFINED := by
  induction l, earlier using Nat.le_induction with
  | base => exact defined
  | succ l _ ih =>
      apply ih
      rw [periodState] at defined
      split at defined
      · exact eq_DEFINED_of_transition T time checker defined
      · exact defined

theorem BIP9State_of_walk {x y : B} {i : Nat} (reach : T.walk x i = some y)
    (same : (T.depth y + 1) / checker.Period = (T.depth x + 1) / checker.Period) :
    BIP9State T time checker (some y) = BIP9State T time checker (some x) := by
  unfold BIP9State
  split_ifs
  · rfl
  · rfl
  · dsimp only
    rw [← same]
    exact (periodState_of_walk reach _ (Nat.div_mul_le_self _ _)).symm

theorem BIP9State_of_final {x y : B} {i : Nat} (reach : T.walk x i = some y)
    (final : BIP9State T time checker (some y) = ACTIVE ∨ BIP9State T time checker (some y) = FAILED) :
    BIP9State T time checker (some x) = BIP9State T time checker (some y) := by
  have lower := (Tree.depth_walk reach).2
  unfold BIP9State at final ⊢
  split_ifs at final ⊢
  · rfl
  · rfl
  · dsimp only at final ⊢
    have earlier : (T.depth y + 1) / checker.Period ≤ (T.depth x + 1) / checker.Period :=
      Nat.div_le_div_right (by omega)
    have along : periodState T time checker x ((T.depth y + 1) / checker.Period) =
        periodState T time checker y ((T.depth y + 1) / checker.Period) :=
      periodState_of_walk reach _ (Nat.div_mul_le_self _ _)
    rw [← along] at final ⊢
    exact periodState_of_final final earlier

end Machine

section Refinement

variable {B : Type} (t : BlockTree B) (bip9Time : B → Int) (checker : ThresholdConditionChecker B)

theorem countCondition_eq : ∀ (k : Nat) (e : B), k ≤ t.nHeight e →
    countCondition t checker (k + 1) (some e) = some ((t.tree.pathUp e k).countP checker.Condition)
  | 0, e, _ => by
      simp [countCondition, Tree.pathUp]
  | k + 1, e, within => by
      obtain ⟨p, up, step⟩ := Tree.parent_of_depth_pos (T := t.tree) (a := e) (by simp only [BlockTree.tree_depth]; omega)
      rw [BlockTree.tree_parent] at up
      rw [countCondition, up, countCondition_eq k p (by simp only [BlockTree.tree_depth] at step; omega),
        Tree.pathUp_succ_of_parent (by rwa [BlockTree.tree_parent]), List.countP_cons]
      rfl

variable {t checker}

theorem stateNext_eq (positive : 0 < checker.Period) {e : B} (long : checker.Period ≤ t.nHeight e + 1)
    (state : ThresholdState) :
    stateNext t bip9Time checker e state = some (transition t.tree bip9Time checker e state) := by
  cases state with
  | STARTED =>
      have counted := countCondition_eq t checker (checker.Period - 1) e (by omega)
      rw [Nat.sub_add_cancel positive] at counted
      simp only [stateNext, counted, transition, signalling, Option.bind_eq_bind, Option.bind_some]
      split_ifs <;> simp_all
  | DEFINED | LOCKED_IN | ACTIVE | FAILED => rfl

end Refinement

section Periods

variable {B : Type} {t : BlockTree B} (built : t.SkipsBuilt) {checker : ThresholdConditionChecker B}
include built

theorem periodBack_eq_some {e p : B} (back : periodBack t checker e = some p) :
    t.nHeight p + checker.Period = t.nHeight e ∧ t.tree.walk e checker.Period = some p := by
  obtain ⟨nonneg, _, height, reach⟩ := t.GetAncestor_eq_some built back
  refine ⟨by omega, ?_⟩
  rwa [show t.nHeight e - ((t.nHeight e : Int) - checker.Period).toNat = checker.Period by omega] at reach

theorem periodBack_of_le {e : B} (high : checker.Period ≤ t.nHeight e) :
    ∃ p, periodBack t checker e = some p := by
  have within : t.nHeight e - checker.Period ≤ t.nHeight e := Nat.sub_le _ _
  obtain ⟨p, found, _, _⟩ := t.GetAncestor_of_le built within
  refine ⟨p, ?_⟩
  rw [periodBack, ← found]
  congr 1
  omega

omit built in
theorem periodStart_of_lt {x : B} (low : t.nHeight x + 1 < checker.Period) : periodStart t checker x = none := by
  apply t.GetAncestor_out_of_range
  rw [Nat.mod_eq_of_lt low]
  omega

theorem periodStart_of_le (positive : 0 < checker.Period) {x : B} (high : checker.Period ≤ t.nHeight x + 1) :
    ∃ a, periodStart t checker x = some a ∧ t.tree.walk x ((t.nHeight x + 1) % checker.Period) = some a ∧
      t.nHeight a + 1 = (t.nHeight x + 1) / checker.Period * checker.Period := by
  have below := Nat.mod_lt (t.nHeight x + 1) positive
  have whole := Nat.div_add_mod' (t.nHeight x + 1) checker.Period
  have within : t.nHeight x - (t.nHeight x + 1) % checker.Period ≤ t.nHeight x := Nat.sub_le _ _
  obtain ⟨a, found, reach, height⟩ := t.GetAncestor_of_le built within
  refine ⟨a, ?_, ?_, by omega⟩
  · rw [periodStart, ← found]
    congr 1
    omega
  · rwa [show t.nHeight x - (t.nHeight x - (t.nHeight x + 1) % checker.Period) = (t.nHeight x + 1) % checker.Period by
      omega] at reach

end Periods

section Spec

variable {B : Type} {t : BlockTree B} (built : t.SkipsBuilt) {bip9Time : B → Int}
  (monotone : ∀ a p, t.pprev a = some p → bip9Time p ≤ bip9Time a) {checker : ThresholdConditionChecker B}
  (positive : 0 < checker.Period)

def PeriodEnd (t : BlockTree B) (checker : ThresholdConditionChecker B) (e : B) : Prop :=
  (t.nHeight e + 1) % checker.Period = 0

include built positive in
theorem stateAfter_periodBack {e : B} {m : Nat} (ends : (m + 1) * checker.Period = t.nHeight e + 1) :
    stateAfter t.tree bip9Time checker (periodBack t checker e) = periodState t.tree bip9Time checker e m := by
  rw [Nat.succ_mul] at ends
  cases back : periodBack t checker e with
  | none =>
      -- nothing a period back: `e` ends the first period
      have low : t.nHeight e < checker.Period := by
        by_contra high
        obtain ⟨p, found⟩ : ∃ p, periodBack t checker e = some p := periodBack_of_le built (by omega)
        rw [found] at back
        cases back
      have first : m * checker.Period = 0 := by omega
      rw [(Nat.mul_eq_zero.mp first).resolve_right (by omega)]
      rfl
  | some p =>
      obtain ⟨height, reach⟩ := periodBack_eq_some built back
      have periods : (t.nHeight p + 1) / checker.Period = m := by
        rw [show t.nHeight p + 1 = m * checker.Period by omega, Nat.mul_div_cancel m positive]
      simp only [stateAfter, BlockTree.tree_depth, periods]
      exact (periodState_of_walk reach m (by simp only [BlockTree.tree_depth]; omega)).symm

include built monotone positive in
theorem isSpec : Memo.IsSpec (periodBack t checker) (fun b => decide (bip9Time b < checker.BeginTime)) DEFINED
    (stateNext t bip9Time checker) (PeriodEnd t checker) t.rank (stateAfter t.tree bip9Time checker) where
  spec_none := rfl
  good_pred e aligned p back := by
    obtain ⟨height, _⟩ := periodBack_eq_some built back
    unfold PeriodEnd at aligned ⊢
    rwa [← height, show t.nHeight p + checker.Period + 1 = t.nHeight p + 1 + checker.Period by omega,
      Nat.add_mod_right] at aligned
  rank_pred e aligned := by
    cases back : periodBack t checker e with
    | none => simp [BlockTree.rank]
    | some p =>
        have height := (periodBack_eq_some built back).1
        simp only [BlockTree.rank]
        omega
  step_eq e aligned unstopped := by
    have whole := Nat.div_add_mod' (t.nHeight e + 1) checker.Period
    unfold PeriodEnd at aligned
    obtain ⟨m, periods⟩ : ∃ m, (t.nHeight e + 1) / checker.Period = m + 1 := by
      refine ⟨(t.nHeight e + 1) / checker.Period - 1, ?_⟩
      have : (t.nHeight e + 1) / checker.Period ≠ 0 := by
        intro zero
        rw [zero] at whole
        omega
      exact (Nat.sub_add_cancel (Nat.one_le_iff_ne_zero.mpr this)).symm
    have ends : (m + 1) * checker.Period = t.nHeight e + 1 := by rw [← periods]; omega
    have long : checker.Period ≤ t.nHeight e + 1 := by rw [← ends, Nat.succ_mul]; omega
    rw [stateAfter_periodBack built positive ends, stateNext_eq bip9Time positive long, stateAfter,
      BlockTree.tree_depth, periods, periodState_last (by rw [BlockTree.tree_depth]; exact ends)]
  stop_eq e aligned stopped := by
    rw [decide_eq_true_eq] at stopped
    exact periodState_of_lt_start monotone stopped _

include built positive in
theorem stateAfter_periodStart (x : B) :
    stateAfter t.tree bip9Time checker (periodStart t checker x) =
      periodState t.tree bip9Time checker x ((t.nHeight x + 1) / checker.Period) := by
  by_cases high : checker.Period ≤ t.nHeight x + 1
  · obtain ⟨a, found, reach, height⟩ := periodStart_of_le built positive high
    have periods : (t.nHeight a + 1) / checker.Period = (t.nHeight x + 1) / checker.Period := by
      rw [height, Nat.mul_div_cancel _ positive]
    rw [found, stateAfter, BlockTree.tree_depth, periods]
    exact (periodState_of_walk reach _ (by rw [BlockTree.tree_depth, height])).symm
  · rw [periodStart_of_lt (by omega), Nat.div_eq_of_lt (by omega)]
    rfl

include built positive in
theorem periodStart_periodEnd {x a : B} (found : periodStart t checker x = some a) : PeriodEnd t checker a := by
  by_cases high : checker.Period ≤ t.nHeight x + 1
  · obtain ⟨a', found', _, height⟩ := periodStart_of_le built positive high
    rw [found', Option.some.injEq] at found
    subst found
    unfold PeriodEnd
    rw [height]
    exact Nat.mul_mod_left _ _
  · rw [periodStart_of_lt (by omega)] at found
    cases found

include positive in
theorem BIP9State_of_periodEnd (always : checker.BeginTime ≠ BIP9Deployment.ALWAYS_ACTIVE)
    (never : checker.BeginTime ≠ BIP9Deployment.NEVER_ACTIVE) {x p : B} {d j : Nat} (reach : t.tree.walk x d = some p)
    (ends : t.nHeight p + 1 = j * checker.Period) :
    BIP9State t.tree bip9Time checker (some p) = periodState t.tree bip9Time checker x j := by
  rw [BIP9State, if_neg always, if_neg never, BlockTree.tree_depth, ends, Nat.mul_div_cancel _ positive]
  exact (periodState_of_walk reach _ (by rw [BlockTree.tree_depth, ends])).symm

end Spec

section Refines

variable {B : Type} [DecidableEq B] {t : BlockTree B} (built : t.SkipsBuilt) {bip9Time : B → Int}
  (monotone : ∀ a p, t.pprev a = some p → bip9Time p ≤ bip9Time a) {checker : ThresholdConditionChecker B}
  (positive : 0 < checker.Period)

include built monotone positive

theorem GetStateFor_eq {cache : ThresholdConditionCache B} (sound : Memo.Sound (stateAfter t.tree bip9Time checker) cache)
    (pindexPrev : Option B) :
    ∃ cache', GetStateFor t bip9Time checker pindexPrev cache = some (BIP9State t.tree bip9Time checker pindexPrev, cache') ∧
      Memo.Sound (stateAfter t.tree bip9Time checker) cache' := by
  unfold GetStateFor BIP9State
  dsimp only
  split_ifs with always never
  · exact ⟨cache, rfl, sound⟩
  · exact ⟨cache, rfl, sound⟩
  · -- the memoised walks from the block aligned to
    have goodKey : Memo.GoodKey (PeriodEnd t checker) (pindexPrev.bind (periodStart t checker)) := by
      cases pindexPrev with
      | none => trivial
      | some x =>
          rw [Option.bind_some]
          cases found : periodStart t checker x with
          | none => trivial
          | some a => exact periodStart_periodEnd built positive found
    obtain ⟨cache', ran, sound'⟩ :=
      Memo.run_spec (isSpec built monotone positive) (Nat.lt_succ_self _) goodKey sound
    refine ⟨cache', ?_, sound'⟩
    rw [ran]
    cases pindexPrev with
    | none => rfl
    | some x => rw [Option.bind_some, stateAfter_periodStart built positive, BlockTree.tree_depth]

theorem sinceLoop_eq (always : checker.BeginTime ≠ BIP9Deployment.ALWAYS_ACTIVE)
    (never : checker.BeginTime ≠ BIP9Deployment.NEVER_ACTIVE) {x : B} {m : Nat}
    (started : periodState t.tree bip9Time checker x m ≠ DEFINED) :
    ∀ (fuel j : Nat) (a : B) (d : Nat) (cache : ThresholdConditionCache B),
      Memo.Sound (stateAfter t.tree bip9Time checker) cache → t.tree.walk x d = some a →
      t.nHeight a + 1 = j * checker.Period → j ≤ fuel → j ≤ m →
      (∀ i, j ≤ i → i ≤ m → periodState t.tree bip9Time checker x i = periodState t.tree bip9Time checker x m) →
      ∃ j' cache', sinceLoop t bip9Time checker (periodState t.tree bip9Time checker x m) fuel a
          (periodBack t checker a) cache = some (((j' * checker.Period : Nat) : Int), cache') ∧
        Memo.Sound (stateAfter t.tree bip9Time checker) cache' ∧ IsRunStart (periodState t.tree bip9Time checker x) m j'
  | 0, j, a, d, cache, _, _, height, fueled, _, _ => by
      rw [Nat.le_zero.mp fueled, Nat.zero_mul] at height
      omega
  | fuel + 1, j, a, d, cache, sound, reach, height, fueled, below, run => by
      cases back : periodBack t checker a with
      | none =>
          -- `a` ends the first period
          have low : t.nHeight a < checker.Period := by
            by_contra high
            obtain ⟨p, found⟩ : ∃ p, periodBack t checker a = some p := periodBack_of_le built (Nat.le_of_not_lt high)
            rw [found] at back
            cases back
          have first : j ≤ 1 := Nat.le_of_mul_le_mul_right (by omega : j * checker.Period ≤ 1 * checker.Period) positive
          refine ⟨j, cache, ?_, sound, below, run, Or.inr ?_⟩
          · simp only [sinceLoop, ← height, Nat.cast_add, Nat.cast_one]
          · rw [show j - 1 = 0 by omega]
            exact started.symm
      | some p =>
          obtain ⟨lower, up⟩ := periodBack_eq_some built back
          have reach' : t.tree.walk x (d + checker.Period) = some p := by
            rw [Tree.walk_add_of_walk reach]
            exact up
          have ends : t.nHeight p + 1 = (j - 1) * checker.Period := by
            rw [Nat.sub_one_mul]
            omega
          obtain ⟨cache', called, sound'⟩ := GetStateFor_eq built monotone positive sound (some p)
          rw [BIP9State_of_periodEnd positive always never reach' ends] at called
          simp only [sinceLoop, called, Option.bind_eq_bind, Option.bind_some]
          split_ifs with same
          · -- period `j - 1` has the state too: on from `p`
            have first : 1 ≤ j - 1 := by
              by_contra zero
              rw [show j - 1 = 0 by omega, Nat.zero_mul] at ends
              omega
            exact sinceLoop_eq always never started fuel (j - 1) p (d + checker.Period) cache' sound' reach' ends
              (by omega) (by omega) fun i lo hi => (Nat.eq_or_lt_of_le lo).elim (fun at_j => at_j ▸ same)
                (fun above => run i (by omega) hi)
          · refine ⟨j, cache', ?_, sound', below, run, Or.inr same⟩
            simp only [← height, Nat.cast_add, Nat.cast_one]

theorem GetStateSinceHeightFor_eq {cache : ThresholdConditionCache B}
    (sound : Memo.Sound (stateAfter t.tree bip9Time checker) cache) (x : B) :
    ∃ j cache', GetStateSinceHeightFor t bip9Time checker (some x) cache =
        some (((j * checker.Period : Nat) : Int), cache') ∧
      Memo.Sound (stateAfter t.tree bip9Time checker) cache' ∧
      IsRunStart (BIP9PeriodState t.tree bip9Time checker x) ((t.nHeight x + 1) / checker.Period) j := by
  unfold GetStateSinceHeightFor
  by_cases special : checker.BeginTime = BIP9Deployment.ALWAYS_ACTIVE ∨ checker.BeginTime = BIP9Deployment.NEVER_ACTIVE
  · -- every period has the state of the deployment
    refine ⟨0, cache, by simp only [special, if_true, Nat.zero_mul, Nat.cast_zero]; rfl, sound, Nat.zero_le _,
      fun i _ _ => ?_, Or.inl rfl⟩
    unfold BIP9PeriodState
    split_ifs with always never
    · rfl
    · rfl
    · exact absurd special (not_or.mpr ⟨always, never⟩)
  · obtain ⟨always, never⟩ := not_or.mp special
    have states : BIP9PeriodState t.tree bip9Time checker x = periodState t.tree bip9Time checker x :=
      funext fun k => by rw [BIP9PeriodState, if_neg always, if_neg never]
    obtain ⟨cache', called, sound'⟩ := GetStateFor_eq built monotone positive sound (some x)
    rw [BIP9State, if_neg always, if_neg never] at called
    rw [states, BlockTree.tree_depth] at *
    simp only [special, if_false, called, Option.bind_eq_bind, Option.bind_some]
    split_ifs with defined
    · -- DEFINED since genesis
      refine ⟨0, cache', by rw [Nat.zero_mul, Nat.cast_zero]; rfl, sound', Nat.zero_le _, fun i _ later => ?_, Or.inl rfl⟩
      rw [defined]
      exact periodState_of_DEFINED defined later
    · -- the block aligned to ends the period before, which is not the first
      have high : checker.Period ≤ t.nHeight x + 1 := by
        by_contra low
        rw [Nat.div_eq_of_lt (by omega)] at defined
        exact defined rfl
      obtain ⟨a, found, reach, height⟩ := periodStart_of_le built positive high
      simp only [found, Option.bind_some]
      exact sinceLoop_eq built monotone positive always never defined _ _ a _ cache' sound' reach height
        (by rw [height]; exact Nat.le_mul_of_pos_right _ positive) le_rfl fun i lo hi => by rw [Nat.le_antisymm hi lo]

theorem Reachable.sound {cache : ThresholdConditionCache B} (reachable : Reachable t bip9Time checker cache) :
    Memo.Sound (stateAfter t.tree bip9Time checker) cache := by
  induction reachable with
  | empty => exact Memo.Sound.empty
  | state _ called sound =>
      obtain ⟨cache', ran, sound'⟩ := GetStateFor_eq built monotone positive sound _
      rw [ran, Option.some.injEq, Prod.mk.injEq] at called
      exact called.2 ▸ sound'
  | @since _ _ pindexPrev _ _ called sound =>
      cases pindexPrev with
      | none =>
          -- the parent of genesis: the walk from it and nothing else
          unfold GetStateSinceHeightFor at called
          dsimp only at called
          obtain ⟨cache', ran, sound'⟩ := GetStateFor_eq built monotone positive sound none
          split_ifs at called with special
          · rw [Option.pure_def, Option.some.injEq, Prod.mk.injEq] at called
            exact called.2 ▸ sound
          · simp only [ran, Option.bind_eq_bind, Option.bind_some] at called
            split_ifs at called
            · rw [Option.pure_def, Option.some.injEq, Prod.mk.injEq] at called
              exact called.2 ▸ sound'
            · cases called
      | some x =>
          obtain ⟨j, cache', ran, sound', _⟩ := GetStateSinceHeightFor_eq built monotone positive sound x
          rw [ran, Option.some.injEq, Prod.mk.injEq] at called
          exact called.2 ▸ sound'

end Refines

section Deployment

variable {B : Type} [DecidableEq B] (t : BlockTree B) (GetMedianTimePast : B → Int) (nVersion : B → Int32)
  (params : VersionBitsParams) (id : DeploymentPos)

omit [DecidableEq B] in
theorem GetBIP9Time_monotone (elements : params.elements_mode = true) :
    ∀ a p, t.pprev a = some p →
      GetBIP9Time t GetMedianTimePast params.elements_mode p ≤ GetBIP9Time t GetMedianTimePast params.elements_mode a := by
  intro a p up
  have height := t.nHeight_pprev a p up
  simp only [GetBIP9Time, elements, if_true]
  omega

theorem versionbitsState_refines (built : t.SkipsBuilt) (elements : params.elements_mode = true)
    (thresholdPos : 1 ≤ (VersionBitsConditionChecker nVersion params id).Threshold)
    (thresholdLe : (VersionBitsConditionChecker nVersion params id).Threshold ≤
      (VersionBitsConditionChecker nVersion params id).Period) :
    let checker := VersionBitsConditionChecker nVersion params id
    let bip9Time := GetBIP9Time t GetMedianTimePast params.elements_mode
    (∀ cache, Reachable t bip9Time checker cache → ∀ pindexPrev, ∃ cache',
      GetStateFor t bip9Time checker pindexPrev cache = some (BIP9State t.tree bip9Time checker pindexPrev, cache') ∧
        Reachable t bip9Time checker cache') ∧
    (∀ x y i, t.tree.walk x i = some y → (t.nHeight y + 1) / checker.Period = (t.nHeight x + 1) / checker.Period →
      BIP9State t.tree bip9Time checker (some y) = BIP9State t.tree bip9Time checker (some x)) ∧
    (∀ x y i, t.tree.walk x i = some y →
      BIP9State t.tree bip9Time checker (some y) = ACTIVE ∨ BIP9State t.tree bip9Time checker (some y) = FAILED →
        BIP9State t.tree bip9Time checker (some x) = BIP9State t.tree bip9Time checker (some y)) ∧
    (∀ cache, Reachable t bip9Time checker cache → ∀ x, ∃ j cache',
      GetStateSinceHeightFor t bip9Time checker (some x) cache = some (((j * checker.Period : Nat) : Int), cache') ∧
        Reachable t bip9Time checker cache' ∧
        IsRunStart (BIP9PeriodState t.tree bip9Time checker x) ((t.nHeight x + 1) / checker.Period) j) := by
  intro checker bip9Time
  have monotone := GetBIP9Time_monotone t GetMedianTimePast params elements
  have positive : 0 < checker.Period := Nat.lt_of_lt_of_le thresholdPos thresholdLe
  refine ⟨fun cache reachable pindexPrev => ?_, fun x y i reach same => BIP9State_of_walk reach same,
    fun x y i reach final => BIP9State_of_final reach final, fun cache reachable x => ?_⟩
  · obtain ⟨cache', ran, _⟩ := GetStateFor_eq built monotone positive (reachable.sound built monotone positive) pindexPrev
    exact ⟨cache', ran, reachable.state ran⟩
  · obtain ⟨j, cache', ran, _, runStart⟩ :=
      GetStateSinceHeightFor_eq built monotone positive (reachable.sound built monotone positive) x
    exact ⟨j, cache', ran, reachable.since ran, runStart⟩

/-- A deployment of period two and threshold one on `forkedIndex`, from the empty cache. -/
theorem versionbitsState_refines_forked :
    let params : VersionBitsParams := ⟨fun _ => ⟨0, 1, 3, 0, some 2, some 1⟩, 1, 2, true⟩
    let checker := VersionBitsConditionChecker (fun _ => VERSIONBITS_TOP_BITS) params .DEPLOYMENT_TAPROOT
    let bip9Time := GetBIP9Time BlockTree.forkedIndex (fun _ => 0) params.elements_mode
    params.elements_mode = true ∧ 1 ≤ checker.Threshold ∧ checker.Threshold ≤ checker.Period ∧
      ∃ cache', GetStateFor BlockTree.forkedIndex bip9Time checker (some 5) Memo.Cache.empty =
          some (BIP9State BlockTree.forkedIndex.tree bip9Time checker (some 5), cache') ∧
        Reachable BlockTree.forkedIndex bip9Time checker cache' :=
  ⟨rfl, by decide, by decide,
    (versionbitsState_refines BlockTree.forkedIndex (fun _ => 0) (fun _ => VERSIONBITS_TOP_BITS)
      ⟨fun _ => ⟨0, 1, 3, 0, some 2, some 1⟩, 1, 2, true⟩ .DEPLOYMENT_TAPROOT BlockTree.forkedIndex_skipsBuilt rfl
      (by decide) (by decide)).1 _ Reachable.empty (some 5)⟩

end Deployment

end Elements
