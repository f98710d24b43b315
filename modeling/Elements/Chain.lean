import Elements.Tree.Ancestry
import Elements.Dynafed

/-! `chain.cpp`: the skip pointers of the block index. Besides `pprev`, every block keeps a
`pskip` pointer to the ancestor at the height `GetSkipHeight` gives; `GetAncestor` jumps along
them, `BuildSkip` sets them, and `LastCommonAncestor` finds where two branches meet. Blocks are
of any type, and heights are the non-negative `int`s the source keeps in them. The headers of the
path from genesis make the block index `Dynafed` reads, whose `GetAncestor` is this one. -/

namespace Elements

open Ancestry

/-- `InvertLowestOne(n)`: `n & (n - 1)`. -/
def InvertLowestOne (n : Nat) : Nat := n &&& (n - 1)

def GetSkipHeight (height : Nat) : Nat :=
  if height < 2 then 0
  else if height &&& 1 ≠ 0 then InvertLowestOne (InvertLowestOne (height - 1)) + 1
  else InvertLowestOne height

theorem InvertLowestOne_le (n : Nat) : InvertLowestOne n ≤ n - 1 := Nat.and_le_right

theorem GetSkipHeight_lt {height : Nat} (positive : 1 ≤ height) : GetSkipHeight height < height := by
  unfold GetSkipHeight
  split_ifs with small odd
  · omega
  · have inner := InvertLowestOne_le (height - 1)
    have outer : InvertLowestOne (InvertLowestOne (height - 1)) ≤ InvertLowestOne (height - 1) := Nat.and_le_left
    omega
  · have lowered := InvertLowestOne_le height
    omega

/-- The block index: blocks with their `pprev` and `pskip` pointers and their heights, the
`pprev` pointers making a tree with the genesis block at its root. -/
structure BlockTree (B : Type) where
  pprev : B → Option B
  pskip : B → Option B
  nHeight : B → Nat
  nHeight_pprev : ∀ b p, pprev b = some p → nHeight b = nHeight p + 1
  nHeight_genesis : ∀ b, pprev b = none → nHeight b = 0
  genesis_unique : ∀ a b, pprev a = none → pprev b = none → a = b

namespace BlockTree

variable {B : Type} (t : BlockTree B)

/-- The tree of `pprev` pointers. -/
def tree : Ancestry.Tree B := ⟨t.pprev, t.nHeight, t.nHeight_pprev, t.nHeight_genesis, t.genesis_unique⟩

@[simp] theorem tree_parent : t.tree.parent = t.pprev := rfl

@[simp] theorem tree_depth : t.tree.depth = t.nHeight := rfl

/-- The loop of `GetAncestor`, from `pindexWalk` at `heightWalk` down to `height`: along `pskip`
where it lands at `height`, or above it while `pprev`'s own skip is no better, and along `pprev`
otherwise; `none` where `assert(pindexWalk->pprev)` fails. -/
def ancestorLoop (height : Nat) (pindexWalk : B) (heightWalk : Nat) : Option B :=
  if heightWalk > height then
    let heightSkip := GetSkipHeight heightWalk
    let heightSkipPrev := GetSkipHeight (heightWalk - 1)
    match t.pskip pindexWalk, decide (heightSkip = height ∨
        (heightSkip > height ∧ ¬(heightSkipPrev < heightSkip - 2 ∧ heightSkipPrev ≥ height))) with
    | some pskip, true => ancestorLoop height pskip heightSkip
    | _, _ =>
        match t.pprev pindexWalk with
        | some pprev => ancestorLoop height pprev (heightWalk - 1)
        | none => none
  else some pindexWalk
termination_by heightWalk
decreasing_by
  · exact GetSkipHeight_lt (by omega)
  · omega

def GetAncestor (pindex : B) (height : Int) : Option B :=
  if height > t.nHeight pindex ∨ height < 0 then none
  else t.ancestorLoop height.toNat pindex (t.nHeight pindex)

/-- The `pskip` that `pindex->BuildSkip()` sets; a block without `pprev` keeps its null one. -/
def BuildSkip (pindex : B) : Option B :=
  match t.pprev pindex with
  | some pprev => t.GetAncestor pprev (GetSkipHeight (t.nHeight pindex))
  | none => none

/-- Every block's `pskip` was set by `BuildSkip`. -/
def SkipsBuilt : Prop := ∀ b, t.pskip b = t.BuildSkip b

def forkedIndex : BlockTree (Fin 6) where
  pprev := ![none, some 0, some 1, some 2, some 2, some 4]
  pskip := ![none, some 0, some 0, some 1, some 1, some 0]
  nHeight := ![0, 1, 2, 3, 3, 4]
  nHeight_pprev := by decide
  nHeight_genesis := by decide
  genesis_unique := by decide

theorem forkedIndex_skipsBuilt : forkedIndex.SkipsBuilt := by
  unfold SkipsBuilt
  decide +kernel

theorem ancestorLoop_done {height : Nat} (w : B) : t.ancestorLoop height w height = some w := by
  rw [ancestorLoop, if_neg (Nat.lt_irrefl height)]

theorem ancestorLoop_step {height : Nat} {w : B} {hw : Nat} (walking : height < hw) :
    (∃ s, t.pskip w = some s ∧ height ≤ GetSkipHeight hw ∧
      t.ancestorLoop height w hw = t.ancestorLoop height s (GetSkipHeight hw)) ∨
    t.ancestorLoop height w hw = (t.pprev w).bind fun p => t.ancestorLoop height p (hw - 1) := by
  rw [ancestorLoop, if_pos walking]
  dsimp only
  split
  · rename_i s skip jump
    refine .inl ⟨s, skip, ?_, rfl⟩
    rw [decide_eq_true_eq] at jump
    omega
  · right
    split
    · rename_i p up
      rw [up, Option.bind_some]
    · rename_i up
      rw [up, Option.bind_none]

/-- Every skip pointer of a block at height at most `H` points at the block's ancestor at its skip
height. -/
def SkipsCorrectBelow (H : Nat) : Prop :=
  ∀ b s, t.nHeight b ≤ H → t.pskip b = some s →
    t.tree.walk b (t.nHeight b - GetSkipHeight (t.nHeight b)) = some s

theorem ancestorLoop_eq_walk {H height : Nat} (skips : t.SkipsCorrectBelow H) :
    ∀ hw w, t.nHeight w = hw → hw ≤ H → height ≤ hw → t.ancestorLoop height w hw = t.tree.walk w (hw - height) := by
  intro hw
  induction hw using Nat.strong_induction_on with
  | _ hw ih =>
    intro w level low above
    rcases Nat.eq_or_lt_of_le above with rfl | walking
    · rw [ancestorLoop_done, Nat.sub_self, Tree.walk_zero]
    · rcases t.ancestorLoop_step walking with ⟨s, skip, landing, jump⟩ | back
      · -- the jump lands on the ancestor at the skip height
        have positive : 1 ≤ hw := by omega
        have skipBelow := GetSkipHeight_lt positive
        have reach := skips w s (by omega) skip
        rw [level] at reach
        have moved := Tree.depth_walk reach
        rw [tree_depth, level] at moved
        rw [jump, ih _ skipBelow s (by omega) (by omega) landing,
          show hw - height = (hw - GetSkipHeight hw) + (GetSkipHeight hw - height) by omega,
          Tree.walk_add_of_walk reach]
      · obtain ⟨p, up, step⟩ := Tree.parent_of_depth_pos (T := t.tree) (a := w) (by rw [tree_depth]; omega)
        rw [tree_parent] at up
        rw [tree_depth] at step
        rw [back, up, Option.bind_some, ih (hw - 1) (by omega) p (by omega) (by omega) (by omega),
          show hw - height = (hw - 1 - height) + 1 by omega, Tree.walk_succ_of_parent (T := t.tree) up]

theorem skipsCorrectBelow_of_built (built : t.SkipsBuilt) (H : Nat) : t.SkipsCorrectBelow H := by
  induction H with
  | zero =>
      intro b s low skip
      -- the genesis block has no pprev, so BuildSkip left its pskip null
      have genesis : t.pprev b = none := Tree.parent_eq_none_of_depth_zero (T := t.tree) (by rw [tree_depth]; omega)
      rw [built b, BuildSkip, genesis] at skip
      contradiction
  | succ H ih =>
      intro b s low skip
      rw [built b, BuildSkip] at skip
      split at skip
      · rename_i p up
        have step := t.nHeight_pprev b p up
        have positive : 1 ≤ t.nHeight b := by omega
        have skipBelow := GetSkipHeight_lt positive
        rw [GetAncestor, if_neg (by omega), Int.toNat_natCast,
          ancestorLoop_eq_walk t ih (t.nHeight p) p rfl (by omega) (by omega)] at skip
        rw [show t.nHeight b - GetSkipHeight (t.nHeight b) = (t.nHeight p - GetSkipHeight (t.nHeight b)) + 1 by omega,
          Tree.walk_succ_of_parent (T := t.tree) up]
        exact skip
      · contradiction

theorem GetAncestor_eq_walk (built : t.SkipsBuilt) {b : B} {height : Int} (nonneg : 0 ≤ height)
    (below : height ≤ t.nHeight b) : t.GetAncestor b height = t.tree.walk b (t.nHeight b - height.toNat) := by
  rw [GetAncestor, if_neg (by omega),
    ancestorLoop_eq_walk t (skipsCorrectBelow_of_built t built (t.nHeight b)) _ b rfl le_rfl (by omega)]

theorem GetAncestor_out_of_range {b : B} {height : Int} (outside : height < 0 ∨ t.nHeight b < height) :
    t.GetAncestor b height = none := by
  rw [GetAncestor, if_pos (by omega)]

theorem GetAncestor_of_le (built : t.SkipsBuilt) {b : B} {height : Nat} (below : height ≤ t.nHeight b) :
    ∃ e, t.GetAncestor b height = some e ∧ t.tree.walk b (t.nHeight b - height) = some e ∧ t.nHeight e = height := by
  obtain ⟨e, reach⟩ := Tree.walk_isSome (T := t.tree) (a := b) (k := t.nHeight b - height) (by rw [tree_depth]; omega)
  have moved := Tree.depth_walk reach
  rw [tree_depth] at moved
  refine ⟨e, ?_, reach, by omega⟩
  rw [GetAncestor_eq_walk t built (by omega) (by omega), Int.toNat_natCast, reach]

theorem GetAncestor_eq_some (built : t.SkipsBuilt) {b e : B} {height : Int} (found : t.GetAncestor b height = some e) :
    0 ≤ height ∧ height ≤ t.nHeight b ∧ (t.nHeight e : Int) = height ∧
      t.tree.walk b (t.nHeight b - height.toNat) = some e := by
  by_cases inRange : 0 ≤ height ∧ height ≤ t.nHeight b
  · rw [GetAncestor_eq_walk t built inRange.1 inRange.2] at found
    have moved := Tree.depth_walk found
    exact ⟨inRange.1, inRange.2, by simp only [tree_depth] at moved; omega, found⟩
  · rw [GetAncestor_out_of_range t (by omega)] at found
    contradiction

/-- The block index as `Dynafed` models it: the headers from genesis up to `pindex`. -/
def toCBlockIndex (header : B → CBlockHeader) (pindex : B) : CBlockIndex :=
  ⟨(t.tree.path pindex).map header, by
    rw [← List.length_pos_iff_ne_nil, List.length_map, Ancestry.Tree.length_path]
    omega⟩

/-- The list model of the block index reads at a height the header of the block this
`GetAncestor` finds along its skip pointers. -/
theorem GetAncestor_toCBlockIndex (built : t.SkipsBuilt) (header : B → CBlockHeader) (pindex : B) (height : Nat) :
    (t.toCBlockIndex header pindex).GetAncestor height = (t.GetAncestor pindex height).map header := by
  rw [CBlockIndex.GetAncestor, toCBlockIndex, List.getElem?_map, Ancestry.Tree.path_getElem?, tree_depth]
  split_ifs with within
  · rw [t.GetAncestor_eq_walk built (by omega) (by omega), Int.toNat_natCast]
  · rw [t.GetAncestor_out_of_range (by omega), Option.map_none]

theorem GetAncestor_toCBlockIndex_forked :
    (forkedIndex.toCBlockIndex (fun b => { CBlockHeader.null with block_height := (b : Nat).toUInt32 }) 5).GetAncestor 2 =
      (forkedIndex.GetAncestor 5 2).map fun b => { CBlockHeader.null with block_height := (b : Nat).toUInt32 } :=
  GetAncestor_toCBlockIndex forkedIndex forkedIndex_skipsBuilt _ 5 2

section Common

/-- One above the height of a non-null pointer: what the loop of `LastCommonAncestor` lowers. -/
def rank : Option B → Nat
  | some b => t.nHeight b + 1
  | none => 0

theorem rank_pprev_lt (b : B) : t.rank (t.pprev b) < t.rank (some b) := by
  cases up : t.pprev b with
  | none => simp [rank]
  | some p =>
      have step := t.nHeight_pprev b p up
      simp only [rank]
      omega

variable [DecidableEq B]

/-- The loop of `LastCommonAncestor`: both pointers back along `pprev` until they meet or one is
null. -/
def commonLoop (pa pb : Option B) : Option B × Option B :=
  match pa, pb with
  | some a, some b => if a ≠ b then commonLoop (t.pprev a) (t.pprev b) else (some a, some b)
  | pa, pb => (pa, pb)
termination_by t.rank pa
decreasing_by exact t.rank_pprev_lt a

/-- `LastCommonAncestor(pa, pb)`; the outer `none` is a failed `assert(pa == pb)`. -/
def LastCommonAncestor (pa pb : B) : Option (Option B) :=
  let (pa, pb) :=
    if t.nHeight pa > t.nHeight pb then (t.GetAncestor pa (t.nHeight pb), some pb)
    else if t.nHeight pb > t.nHeight pa then (some pa, t.GetAncestor pb (t.nHeight pa))
    else (some pa, some pb)
  let (pa, pb) := t.commonLoop pa pb
  if pa = pb then some pa else none

theorem commonLoop_self (a : B) : t.commonLoop (some a) (some a) = (some a, some a) := by
  rw [commonLoop, if_neg (not_not.mpr rfl)]

theorem commonLoop_meets (n : Nat) :
    ∀ a b, t.nHeight a = n → t.nHeight b = n →
      ∃ c, t.commonLoop (some a) (some b) = (some c, some c) ∧ t.tree.IsLastCommon c a b := by
  induction n with
  | zero =>
      intro a b zero_a zero_b
      obtain rfl := Tree.eq_of_depth_zero (T := t.tree) zero_a zero_b
      exact ⟨a, t.commonLoop_self a, Tree.isLastCommon_self a⟩
  | succ n ih =>
      intro a b level_a level_b
      by_cases same : a = b
      · subst same
        exact ⟨a, t.commonLoop_self a, Tree.isLastCommon_self a⟩
      · obtain ⟨p, up_a, step_a⟩ := Tree.parent_of_depth_pos (T := t.tree) (a := a) (by rw [tree_depth]; omega)
        obtain ⟨q, up_b, step_b⟩ := Tree.parent_of_depth_pos (T := t.tree) (a := b) (by rw [tree_depth]; omega)
        rw [tree_depth] at step_a step_b
        obtain ⟨c, loop, last⟩ := ih p q (by omega) (by omega)
        refine ⟨c, ?_, Tree.isLastCommon_of_parents same (by rw [tree_depth]; omega) up_a up_b last⟩
        rw [tree_parent] at up_a up_b
        rw [commonLoop, if_pos same, up_a, up_b, loop]

theorem LastCommonAncestor_of_aligned {a b ea eb : B} {i j : Nat} (reach_a : t.tree.walk a i = some ea)
    (reach_b : t.tree.walk b j = some eb) (lowest : t.nHeight ea = min (t.nHeight a) (t.nHeight b))
    (level : t.nHeight ea = t.nHeight eb)
    (aligned : t.LastCommonAncestor a b =
      match t.commonLoop (some ea) (some eb) with
      | (pa, pb) => if pa = pb then some pa else none) :
    ∃ c, t.LastCommonAncestor a b = some (some c) ∧ t.tree.IsLastCommon c a b := by
  obtain ⟨c, loop, last⟩ := t.commonLoop_meets _ ea eb rfl level.symm
  refine ⟨c, ?_, Tree.isLastCommon_of_aligned reach_a reach_b lowest level last⟩
  rw [aligned, loop]
  exact if_pos rfl

theorem LastCommonAncestor_spec (built : t.SkipsBuilt) (a b : B) :
    ∃ c, t.LastCommonAncestor a b = some (some c) ∧ t.tree.IsLastCommon c a b := by
  by_cases higher : t.nHeight a > t.nHeight b
  · have below : t.nHeight b ≤ t.nHeight a := by omega
    obtain ⟨ea, get, reach, level⟩ := t.GetAncestor_of_le built below
    refine t.LastCommonAncestor_of_aligned reach (Tree.walk_zero b) (by omega) level ?_
    simp only [LastCommonAncestor, if_pos higher, get]
  · by_cases lower : t.nHeight b > t.nHeight a
    · have below : t.nHeight a ≤ t.nHeight b := by omega
      obtain ⟨eb, get, reach, level⟩ := t.GetAncestor_of_le built below
      refine t.LastCommonAncestor_of_aligned (Tree.walk_zero a) reach (by omega) level.symm ?_
      simp only [LastCommonAncestor, if_neg higher, if_pos lower, get]
    · refine t.LastCommonAncestor_of_aligned (Tree.walk_zero a) (Tree.walk_zero b) (by omega) (by omega) ?_
      simp only [LastCommonAncestor, if_neg higher, if_neg lower]

end Common

end BlockTree

/-- `GetAncestor` along skip pointers set by `BuildSkip` agrees with walking `pprev`, and
`LastCommonAncestor` finds the last block two branches share. -/
theorem getAncestor_skipList {B : Type} [DecidableEq B] (t : BlockTree B) (built : t.SkipsBuilt) :
    (∀ (b : B) (height : Int), 0 ≤ height → height ≤ t.nHeight b →
      ∃ e, t.GetAncestor b height = some e ∧ t.tree.walk b (t.nHeight b - height.toNat) = some e) ∧
    (∀ (b : B) (height : Int), height < 0 ∨ t.nHeight b < height → t.GetAncestor b height = none) ∧
    (∀ n, 1 ≤ n → GetSkipHeight n < n) ∧
    ∀ a b : B, ∃ c, t.LastCommonAncestor a b = some (some c) ∧ t.tree.IsLastCommon c a b := by
  refine ⟨fun b height nonneg below => ?_, fun _ _ outside => t.GetAncestor_out_of_range outside,
    fun _ positive => GetSkipHeight_lt positive, t.LastCommonAncestor_spec built⟩
  obtain ⟨e, reach⟩ := Ancestry.Tree.walk_isSome (T := t.tree) (a := b) (k := t.nHeight b - height.toNat)
    (by rw [BlockTree.tree_depth]; omega)
  exact ⟨e, by rw [t.GetAncestor_eq_walk built nonneg below, reach], reach⟩

theorem getAncestor_skipList_forked :
    ∃ c, BlockTree.forkedIndex.LastCommonAncestor 5 3 = some (some c) ∧
      BlockTree.forkedIndex.tree.IsLastCommon c 5 3 :=
  (getAncestor_skipList BlockTree.forkedIndex BlockTree.forkedIndex_skipsBuilt).2.2.2 5 3

end Elements
