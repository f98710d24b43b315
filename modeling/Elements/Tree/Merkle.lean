import Mathlib

/-! Reference merkle trees over an arbitrary node type and combining
function. The fast merkle tree splits its leaves at the largest power of two
below their count, so that the left subtree is perfect and an odd node is
promoted rather than paired with itself. -/

namespace Merkle

variable {α : Type} (combine : α → α → α)

/-- The largest power of two strictly below `n`, for `2 ≤ n`. -/
def splitPoint (n : Nat) : Nat := 2 ^ Nat.log2 (n - 1)

theorem splitPoint_pos (n : Nat) : 0 < splitPoint n := Nat.two_pow_pos _

theorem splitPoint_lt {n : Nat} (two : 2 ≤ n) : splitPoint n < n := by
  have le : 2 ^ Nat.log2 (n - 1) ≤ n - 1 := Nat.log2_self_le (by omega)
  unfold splitPoint
  omega

theorem splitPoint_eq {m k : Nat} (pos : 0 < k) (le : k ≤ 2 ^ m) : splitPoint (2 ^ m + k) = 2 ^ m := by
  have below : 2 ^ m + k - 1 < 2 ^ (m + 1) := by
    rw [Nat.pow_succ]
    omega
  unfold splitPoint
  rw [(Nat.log2_eq_iff (by omega)).mpr ⟨by omega, below⟩]

section Fast

variable [Inhabited α]

def fastRoot : List α → α
  | [] => default
  | [leaf] => leaf
  | leaf :: next :: rest =>
    combine (fastRoot ((leaf :: next :: rest).take (splitPoint (rest.length + 2))))
      (fastRoot ((leaf :: next :: rest).drop (splitPoint (rest.length + 2))))
termination_by leaves => leaves.length
decreasing_by
  · have lt : splitPoint (rest.length + 2) < rest.length + 2 := splitPoint_lt (by omega)
    simp only [List.length_take, List.length_cons]
    omega
  · have pos := splitPoint_pos (rest.length + 2)
    simp only [List.length_drop, List.length_cons]
    omega

@[simp] theorem fastRoot_singleton (leaf : α) : fastRoot combine [leaf] = leaf := by
  rw [fastRoot]

theorem fastRoot_of_two_le {leaves : List α} (two : 2 ≤ leaves.length) :
    fastRoot combine leaves =
      combine (fastRoot combine (leaves.take (splitPoint leaves.length)))
        (fastRoot combine (leaves.drop (splitPoint leaves.length))) := by
  match leaves, two with
  | leaf :: next :: rest, _ =>
    rw [fastRoot]
    rfl

theorem fastRoot_append {left right : List α} {m : Nat} (full : left.length = 2 ^ m)
    (pos : 0 < right.length) (le : right.length ≤ 2 ^ m) :
    fastRoot combine (left ++ right) = combine (fastRoot combine left) (fastRoot combine right) := by
  have two : 2 ≤ (left ++ right).length := by
    have one : 1 ≤ 2 ^ m := Nat.one_le_two_pow
    rw [List.length_append]
    omega
  rw [fastRoot_of_two_le combine two, List.length_append, full, splitPoint_eq pos le, ← full,
    List.take_left, List.drop_left]

end Fast

section Counter

/-- Where the block of bit `i` of `count` starts: after the blocks of the
bits above `i`. -/
def blockStart (count i : Nat) : Nat := count / 2 ^ (i + 1) * 2 ^ (i + 1)

/-- The leaves of the block bit `i` of `count` stands for. -/
def block (leaves : List α) (count i : Nat) : List α := (leaves.drop (blockStart count i)).take (2 ^ i)

theorem blockStart_add_bit (count i : Nat) :
    blockStart count i + count / 2 ^ i % 2 * 2 ^ i = count / 2 ^ i * 2 ^ i := by
  have halves := Nat.div_add_mod (count / 2 ^ i) 2
  rw [blockStart, Nat.pow_succ, ← Nat.div_div_eq_div_mul]
  calc count / 2 ^ i / 2 * (2 ^ i * 2) + count / 2 ^ i % 2 * 2 ^ i
      = (2 * (count / 2 ^ i / 2) + count / 2 ^ i % 2) * 2 ^ i := by ring
    _ = count / 2 ^ i * 2 ^ i := by rw [halves]

theorem blockStart_add_of_testBit {count i : Nat} (set : count.testBit i = true) :
    blockStart count i + 2 ^ i = count / 2 ^ i * 2 ^ i := by
  have bit : count / 2 ^ i % 2 = 1 := by simpa [Nat.testBit_eq_decide_div_mod_eq] using set
  have added := blockStart_add_bit count i
  rwa [bit, Nat.one_mul] at added

theorem blockStart_of_testBit_eq_false {count i : Nat} (clear : count.testBit i = false) :
    blockStart count i = count / 2 ^ i * 2 ^ i := by
  have bit : count / 2 ^ i % 2 = 0 := by simpa [Nat.testBit_eq_decide_div_mod_eq] using clear
  have added := blockStart_add_bit count i
  rwa [bit, Nat.zero_mul, Nat.add_zero] at added

theorem block_append_drop (leaves : List α) {count i : Nat} (set : count.testBit i = true) :
    block leaves count i ++ leaves.drop (count / 2 ^ i * 2 ^ i) = leaves.drop (blockStart count i) := by
  rw [block, ← blockStart_add_of_testBit set, ← List.drop_drop, List.take_append_drop]

theorem mod_two_pow_succ_eq_zero {count j : Nat} (low : count % 2 ^ j = 0)
    (clear : count.testBit j = false) : count % 2 ^ (j + 1) = 0 := by
  have start := blockStart_of_testBit_eq_false clear
  have split := Nat.div_add_mod' count (2 ^ j)
  have split' := Nat.div_add_mod' count (2 ^ (j + 1))
  rw [blockStart] at start
  omega

theorem testBit_eq_false_of_mod {count t i : Nat} (low : count % 2 ^ t = 0) (below : i < t) :
    count.testBit i = false := by
  have bits := Nat.testBit_mod_two_pow count t i
  rw [low, Nat.zero_testBit] at bits
  simpa [below] using bits.symm

theorem blockStart_lowest {count t : Nat} (low : count % 2 ^ t = 0) (set : count.testBit t = true) :
    blockStart count t = count - 2 ^ t := by
  have added := blockStart_add_of_testBit set
  have split := Nat.div_add_mod' count (2 ^ t)
  omega

theorem lowest_eq {count t : Nat} (low : count % 2 ^ t = 0) (set : count.testBit t = true) :
    count = (2 * (count / 2 ^ (t + 1)) + 1) * 2 ^ t := by
  have last := blockStart_lowest low set
  have fits := Nat.le_of_dvd (Nat.pos_of_ne_zero (by rintro rfl; simp at set))
    (Nat.dvd_of_mod_eq_zero low)
  have twice : blockStart count t = 2 * (count / 2 ^ (t + 1)) * 2 ^ t := by
    rw [blockStart, Nat.pow_succ]
    ring
  calc count = blockStart count t + 2 ^ t := by omega
    _ = (2 * (count / 2 ^ (t + 1)) + 1) * 2 ^ t := by rw [twice]; ring

theorem pred_mod_two_pow {count k : Nat} (pos : 0 < count) (low : count % 2 ^ k = 0) :
    (count - 1) % 2 ^ k = 2 ^ k - 1 := by
  have split := Nat.div_add_mod (count - 1) (2 ^ k)
  have small := Nat.mod_lt (count - 1) (Nat.two_pow_pos k)
  have wrap : ((count - 1) % 2 ^ k + 1) % 2 ^ k = 0 := by
    have shifted : count = (count - 1) % 2 ^ k + 1 + 2 ^ k * ((count - 1) / 2 ^ k) := by omega
    rwa [shifted, Nat.add_mul_mod_self_left] at low
  rcases Nat.lt_or_ge ((count - 1) % 2 ^ k + 1) (2 ^ k) with under | full
  · rw [Nat.mod_eq_of_lt under] at wrap
    omega
  · omega

theorem pred_testBit {count j : Nat} (pos : 0 < count) (low : count % 2 ^ (j + 1) = 0) :
    (count - 1).testBit j = true := by
  have bits := Nat.testBit_mod_two_pow (count - 1) (j + 1) j
  rw [pred_mod_two_pow pos low, Nat.testBit_two_pow_sub_one] at bits
  simpa using bits.symm

theorem blockStart_pred {count j : Nat} (pos : 0 < count) (low : count % 2 ^ (j + 1) = 0) :
    blockStart (count - 1) j = count - 2 ^ (j + 1) := by
  have rest := pred_mod_two_pow pos low
  have split := Nat.div_add_mod' (count - 1) (2 ^ (j + 1))
  have one : 1 ≤ 2 ^ (j + 1) := Nat.one_le_two_pow
  rw [blockStart]
  omega

theorem pred_div_of_mod_ne_zero {count k : Nat} (off : count % k ≠ 0) : (count - 1) / k = count / k := by
  rcases Nat.eq_zero_or_pos k with zero | pos
  · simp [zero]
  have split := Nat.div_add_mod' count k
  apply Nat.div_eq_of_lt_le
  · omega
  · have small := Nat.mod_lt count pos
    rw [Nat.add_mul]
    omega

theorem mod_ne_zero_of_lowest {count t i : Nat} (set : count.testBit t = true) (above : t < i) :
    count % 2 ^ i ≠ 0 := by
  intro zero
  have bits := Nat.testBit_mod_two_pow count i t
  rw [zero, Nat.zero_testBit, set] at bits
  simp [above] at bits

theorem pred_testBit_above {count t i : Nat} (set : count.testBit t = true) (above : t < i) :
    (count - 1).testBit i = count.testBit i := by
  rw [Nat.testBit_eq_decide_div_mod_eq, Nat.testBit_eq_decide_div_mod_eq,
    pred_div_of_mod_ne_zero (mod_ne_zero_of_lowest set above)]

theorem blockStart_pred_above {count t i : Nat} (set : count.testBit t = true) (above : t < i) :
    blockStart (count - 1) i = blockStart count i := by
  rw [blockStart, blockStart, pred_div_of_mod_ne_zero (mod_ne_zero_of_lowest set (by omega))]

end Counter

section Duplicating

def pairUp : List α → List α
  | left :: right :: rest => combine left right :: pairUp rest
  | [last] => [combine last last]
  | [] => []

def pairsOf : List α → List (α × α)
  | left :: right :: rest => (left, right) :: pairsOf rest
  | [last] => [(last, last)]
  | [] => []

theorem pairUp_eq_map : ∀ nodes : List α,
    pairUp combine nodes = (pairsOf nodes).map fun pair => combine pair.1 pair.2
  | left :: right :: rest => by rw [pairUp, pairsOf, List.map_cons, pairUp_eq_map rest]
  | [_] => rfl
  | [] => rfl

theorem eq_or_collision_of_map_eq {β : Type} (f : α → β) :
    ∀ {xs ys : List α}, xs.map f = ys.map f → xs = ys ∨ ∃ x ∈ xs, ∃ y ∈ ys, x ≠ y ∧ f x = f y
  | [], [], _ => .inl rfl
  | [], _ :: _, same => by simp at same
  | _ :: _, [], same => by simp at same
  | x :: xs, y :: ys, same => by
    simp only [List.map_cons, List.cons.injEq] at same
    by_cases heads : x = y
    · rcases eq_or_collision_of_map_eq f same.2 with rest | ⟨a, memA, b, memB, differ, collide⟩
      · exact .inl (by rw [heads, rest])
      · exact .inr ⟨a, List.mem_cons_of_mem _ memA, b, List.mem_cons_of_mem _ memB, differ, collide⟩
    · exact .inr ⟨x, List.mem_cons_self, y, List.mem_cons_self, heads, same.1⟩

theorem length_pairUp : ∀ nodes : List α, (pairUp combine nodes).length = (nodes.length + 1) / 2
  | left :: right :: rest => by
    rw [pairUp, List.length_cons, length_pairUp rest, List.length_cons, List.length_cons]
    omega
  | [_] => by simp [pairUp]
  | [] => by simp [pairUp]

theorem pairUp_append : ∀ {front : List α} (back : List α), front.length % 2 = 0 →
    pairUp combine (front ++ back) = pairUp combine front ++ pairUp combine back
  | [], _, _ => rfl
  | [_], _, odd => by simp at odd
  | left :: right :: rest, back, even => by
    have restEven : rest.length % 2 = 0 := by simp at even; omega
    rw [List.cons_append, List.cons_append, pairUp, pairUp, pairUp_append back restEven, List.cons_append]

variable [Inhabited α]

/-- The tree of depth `d` over `leaves`, duplicating where a right subtree is empty. -/
def duplicatingRoot : Nat → List α → α
  | 0, leaves => leaves.headD default
  | depth + 1, leaves =>
    if leaves.length ≤ 2 ^ depth then
      combine (duplicatingRoot depth leaves) (duplicatingRoot depth leaves)
    else
      combine (duplicatingRoot depth (leaves.take (2 ^ depth)))
        (duplicatingRoot depth (leaves.drop (2 ^ depth)))

theorem duplicatingRoot_pairUp :
    ∀ (depth : Nat) (leaves : List α), 0 < leaves.length → leaves.length ≤ 2 ^ (depth + 1) →
      duplicatingRoot combine (depth + 1) leaves = duplicatingRoot combine depth (pairUp combine leaves)
  | 0, [leaf], _, _ => rfl
  | 0, [left, right], _, _ => rfl
  | 0, _ :: _ :: _ :: _, _, fits => by simp at fits
  | 0, [], nonempty, _ => by simp at nonempty
  | depth + 1, leaves, nonempty, fits => by
    have half := length_pairUp combine leaves
    rw [duplicatingRoot]
    by_cases low : leaves.length ≤ 2 ^ (depth + 1)
    · -- the right subtree is empty on both sides
      have lowPaired : (pairUp combine leaves).length ≤ 2 ^ depth := by
        rw [half, Nat.pow_succ] at *
        omega
      rw [if_pos low]
      conv_rhs => rw [duplicatingRoot, if_pos lowPaired]
      rw [duplicatingRoot_pairUp depth leaves nonempty low]
    · -- both subtrees have leaves: pairing splits at the even point `2 ^ (depth + 1)`
      have highPaired : ¬(pairUp combine leaves).length ≤ 2 ^ depth := by
        rw [half, Nat.pow_succ] at *
        omega
      have front : (leaves.take (2 ^ (depth + 1))).length = 2 ^ (depth + 1) := by
        rw [List.length_take]
        omega
      have even : (leaves.take (2 ^ (depth + 1))).length % 2 = 0 := by
        rw [front, Nat.pow_succ]
        omega
      have split := pairUp_append combine (leaves.drop (2 ^ (depth + 1))) even
      rw [List.take_append_drop] at split
      have frontPaired : (pairUp combine (leaves.take (2 ^ (depth + 1)))).length = 2 ^ depth := by
        rw [length_pairUp, front, Nat.pow_succ]
        omega
      rw [if_neg low]
      conv_rhs => rw [duplicatingRoot, if_neg highPaired, split, ← frontPaired, List.take_left,
        List.drop_left]
      rw [duplicatingRoot_pairUp depth _ (by omega) (by omega),
        duplicatingRoot_pairUp depth _ (by simp; omega) (by simp [Nat.pow_succ] at fits ⊢; omega)]

end Duplicating

end Merkle
