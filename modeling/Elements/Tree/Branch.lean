import Mathlib.Data.List.GetD
import Mathlib.Data.List.Induction
import Mathlib.Data.List.Nodup
import Elements.Tree.Merkle

/-! Nodes of a duplicating merkle tree by position, and merkle branches.

The node `height` levels up at `pos` is the duplicating tree over the slice of
leaves below it; there are `width count height` such nodes over `count`
leaves. A branch climbs from one leaf to the root, combining the node it has
reached with one sibling per level, and with itself where a left node has no
right neighbour. A branch that reaches the root of a tree was built from that
tree's own nodes and its leaf is the tree's leaf, unless some level combines
two different pairs, one of the branch and one of the tree, into the same
value. -/

namespace Merkle

variable {α : Type} (combine : α → α → α)

/-- `⌈count / 2 ^ height⌉`, the number of nodes `height` levels above `count` leaves. -/
def width (count height : Nat) : Nat := (count + 2 ^ height - 1) / 2 ^ height

theorem lt_width_iff {count height pos : Nat} :
    pos < width count height ↔ pos * 2 ^ height < count := by
  have one : 1 ≤ 2 ^ height := Nat.one_le_two_pow
  rw [width, ← Nat.add_one_le_iff, Nat.le_div_iff_mul_le (Nat.two_pow_pos height), Nat.succ_mul]
  omega

theorem width_le_one_iff {count height : Nat} : width count height ≤ 1 ↔ count ≤ 2 ^ height := by
  have one : 1 ≤ 2 ^ height := Nat.one_le_two_pow
  rw [width, ← Nat.lt_add_one_iff, Nat.div_lt_iff_lt_mul (Nat.two_pow_pos height)]
  omega

/-- The leaves under the node at `pos`, `height` levels up. -/
def slice (leaves : List α) (height pos : Nat) : List α :=
  (leaves.drop (pos * 2 ^ height)).take (2 ^ height)

theorem length_slice (leaves : List α) (height pos : Nat) :
    (slice leaves height pos).length = min (2 ^ height) (leaves.length - pos * 2 ^ height) := by
  rw [slice, List.length_take, List.length_drop]

theorem take_slice_succ (leaves : List α) (height pos : Nat) :
    (slice leaves (height + 1) pos).take (2 ^ height) = slice leaves height (2 * pos) := by
  have start : pos * 2 ^ (height + 1) = 2 * pos * 2 ^ height := by rw [Nat.pow_succ]; ring
  have half : min (2 ^ height) (2 ^ (height + 1)) = 2 ^ height := by rw [Nat.pow_succ]; omega
  rw [slice, slice, List.take_take, half, start]

theorem drop_slice_succ (leaves : List α) (height pos : Nat) :
    (slice leaves (height + 1) pos).drop (2 ^ height) = slice leaves height (2 * pos + 1) := by
  have start : pos * 2 ^ (height + 1) + 2 ^ height = (2 * pos + 1) * 2 ^ height := by
    rw [Nat.pow_succ]; ring
  have half : 2 ^ (height + 1) - 2 ^ height = 2 ^ height := by rw [Nat.pow_succ]; omega
  rw [slice, slice, List.drop_take, List.drop_drop, half, start]

section Nodes

variable [Inhabited α]

theorem duplicatingRoot_zero_slice (leaves : List α) (pos : Nat) :
    duplicatingRoot combine 0 (slice leaves 0 pos) = leaves.getD pos default := by
  rw [duplicatingRoot, slice, Nat.pow_zero, Nat.mul_one, List.headD_eq_head?_getD, List.head?_take,
    List.head?_drop, List.getD_eq_getElem?_getD]
  rfl

/-- The pair combined into the node at `pos`, `height + 1` levels up: its two
children, the left one twice where there is no right one. -/
def nodePair (leaves : List α) (height pos : Nat) : α × α :=
  let left := duplicatingRoot combine height (slice leaves height (2 * pos))
  if (2 * pos + 1) * 2 ^ height < leaves.length then
    (left, duplicatingRoot combine height (slice leaves height (2 * pos + 1)))
  else (left, left)

theorem duplicatingRoot_slice (leaves : List α) (height pos : Nat) :
    duplicatingRoot combine (height + 1) (slice leaves (height + 1) pos) =
      combine (nodePair combine leaves height pos).1 (nodePair combine leaves height pos).2 := by
  have start : pos * 2 ^ (height + 1) = 2 * (pos * 2 ^ height) := by rw [Nat.pow_succ]; ring
  have right : (2 * pos + 1) * 2 ^ height = 2 * (pos * 2 ^ height) + 2 ^ height := by ring
  have double : 2 ^ (height + 1) = 2 * 2 ^ height := by rw [Nat.pow_succ]; ring
  have len : (slice leaves (height + 1) pos).length =
      min (2 * 2 ^ height) (leaves.length - 2 * (pos * 2 ^ height)) := by
    rw [length_slice, start, double]
  rw [duplicatingRoot, nodePair]
  by_cases twoChildren : (2 * pos + 1) * 2 ^ height < leaves.length
  · have long : ¬(slice leaves (height + 1) pos).length ≤ 2 ^ height := by
      have one : 1 ≤ 2 ^ height := Nat.one_le_two_pow
      rw [len]
      rw [right] at twoChildren
      omega
    rw [if_neg long, if_pos twoChildren, take_slice_succ, drop_slice_succ]
  · -- no right child: the slice is the left child's
    have short : (slice leaves (height + 1) pos).length ≤ 2 ^ height := by
      have one : 1 ≤ 2 ^ height := Nat.one_le_two_pow
      rw [len]
      rw [right] at twoChildren
      omega
    have same : slice leaves (height + 1) pos = slice leaves height (2 * pos) := by
      rw [← take_slice_succ, List.take_of_length_le short]
    rw [if_pos short, if_neg twoChildren, same]

def TreeCollision (leaves : List α) : Prop :=
  ∃ height a b, a * 2 ^ (height + 1) < leaves.length ∧ b * 2 ^ (height + 1) < leaves.length ∧
    nodePair combine leaves height a ≠ nodePair combine leaves height b ∧
    combine (nodePair combine leaves height a).1 (nodePair combine leaves height a).2 =
      combine (nodePair combine leaves height b).1 (nodePair combine leaves height b).2

theorem duplicatingRoot_slice_ne {leaves : List α} (nodup : leaves.Nodup)
    (noCollision : ¬TreeCollision combine leaves) :
    ∀ (height : Nat) {a b : Nat}, a * 2 ^ height < leaves.length → b * 2 ^ height < leaves.length →
      a ≠ b →
      duplicatingRoot combine height (slice leaves height a) ≠
        duplicatingRoot combine height (slice leaves height b)
  | 0, a, b, realA, realB, differ => by
    rw [duplicatingRoot_zero_slice, duplicatingRoot_zero_slice]
    rw [Nat.pow_zero, Nat.mul_one] at realA realB
    rw [List.getD_eq_getElem _ _ realA, List.getD_eq_getElem _ _ realB]
    exact fun same => differ ((List.Nodup.getElem_inj_iff nodup).mp same)
  | height + 1, a, b, realA, realB, differ => by
    rw [duplicatingRoot_slice, duplicatingRoot_slice]
    intro same
    -- equal nodes combine equal pairs, so their left children are equal
    have pairs : nodePair combine leaves height a = nodePair combine leaves height b := by
      by_contra differentPairs
      exact noCollision ⟨height, a, b, realA, realB, differentPairs, same⟩
    have lefts := congrArg Prod.fst pairs
    unfold nodePair at lefts
    have leftA : 2 * a * 2 ^ height < leaves.length := by
      rw [Nat.pow_succ] at realA
      rw [Nat.mul_comm 2 a, Nat.mul_assoc, Nat.mul_comm 2]
      exact realA
    have leftB : 2 * b * 2 ^ height < leaves.length := by
      rw [Nat.pow_succ] at realB
      rw [Nat.mul_comm 2 b, Nat.mul_assoc, Nat.mul_comm 2]
      exact realB
    apply duplicatingRoot_slice_ne nodup noCollision height leftA leftB (by omega)
    split_ifs at lefts <;> exact lefts

end Nodes

/-- The pair combined one level up from the node at `pos`, `height` levels up,
given its sibling: a left node without a right neighbour is paired with itself. -/
def stepPair (count height pos : Nat) (node sibling : α) : α × α :=
  if pos % 2 = 0 then
    if pos + 1 < width count height then (node, sibling) else (node, node)
  else (sibling, node)

/-- The branch from the node at `pos`, `height` levels up, through the given
siblings, one per level. -/
def branchFrom (count : Nat) : Nat → Nat → α → List α → α
  | _, _, node, [] => node
  | height, pos, node, sibling :: siblings =>
    let pair := stepPair count height pos node sibling
    branchFrom count (height + 1) (pos / 2) (combine pair.1 pair.2) siblings

theorem branchFrom_append_singleton (count : Nat) :
    ∀ (siblings : List α) (height pos : Nat) (node sibling : α),
      branchFrom combine count height pos node (siblings ++ [sibling]) =
        combine
          (stepPair count (height + siblings.length) (pos / 2 ^ siblings.length)
            (branchFrom combine count height pos node siblings) sibling).1
          (stepPair count (height + siblings.length) (pos / 2 ^ siblings.length)
            (branchFrom combine count height pos node siblings) sibling).2
  | [], height, pos, node, sibling => by simp [branchFrom]
  | first :: siblings, height, pos, node, sibling => by
    have up : height + 1 + siblings.length = height + (first :: siblings).length := by
      rw [List.length_cons]; omega
    have halved : pos / 2 / 2 ^ siblings.length = pos / 2 ^ (first :: siblings).length := by
      rw [List.length_cons, Nat.div_div_eq_div_mul, Nat.pow_succ']
    rw [List.cons_append, branchFrom, branchFrom_append_singleton count siblings, up, halved]
    rfl

section Binding

variable [Inhabited α]

/-- Some level of the branch from leaf `pos` combines a pair that differs from
the pair the tree of `leaves` combines there, into the same value. -/
def BranchCollision (leaves : List α) (pos : Nat) (leaf : α) (siblings : List α) : Prop :=
  ∃ height < siblings.length,
    stepPair leaves.length height (pos / 2 ^ height)
        (branchFrom combine leaves.length 0 pos leaf (siblings.take height))
        (siblings.getD height default) ≠ nodePair combine leaves height (pos / 2 ^ (height + 1)) ∧
      combine
          (stepPair leaves.length height (pos / 2 ^ height)
            (branchFrom combine leaves.length 0 pos leaf (siblings.take height))
            (siblings.getD height default)).1
          (stepPair leaves.length height (pos / 2 ^ height)
            (branchFrom combine leaves.length 0 pos leaf (siblings.take height))
            (siblings.getD height default)).2 =
        combine (nodePair combine leaves height (pos / 2 ^ (height + 1))).1
          (nodePair combine leaves height (pos / 2 ^ (height + 1))).2

theorem eq_of_stepPair_eq_nodePair {leaves : List α} {pos height : Nat} {node sibling : α}
    (real : pos < leaves.length)
    (same : stepPair leaves.length height (pos / 2 ^ height) node sibling =
      nodePair combine leaves height (pos / 2 ^ (height + 1))) :
    node = duplicatingRoot combine height (slice leaves height (pos / 2 ^ height)) := by
  have halved : pos / 2 ^ (height + 1) = pos / 2 ^ height / 2 := by
    rw [Nat.pow_succ, Nat.div_div_eq_div_mul]
  have below : pos / 2 ^ height * 2 ^ height < leaves.length :=
    Nat.lt_of_le_of_lt (Nat.div_mul_le_self pos _) real
  rw [halved] at same
  unfold stepPair nodePair at same
  by_cases even : pos / 2 ^ height % 2 = 0
  · -- the branch's node is the left child
    have left : 2 * (pos / 2 ^ height / 2) = pos / 2 ^ height := by omega
    rw [if_pos even, left] at same
    split_ifs at same <;> exact (Prod.mk.inj same).1
  · -- the branch's node is the right child, which the tree has
    have right : 2 * (pos / 2 ^ height / 2) + 1 = pos / 2 ^ height := by omega
    rw [if_neg even, right, if_pos below] at same
    exact (Prod.mk.inj same).2

theorem eq_or_branchCollision (leaves : List α) {pos : Nat} (leaf : α) (real : pos < leaves.length)
    (siblings : List α)
    (reached : branchFrom combine leaves.length 0 pos leaf siblings =
      duplicatingRoot combine siblings.length (slice leaves siblings.length (pos / 2 ^ siblings.length))) :
    leaf = leaves.getD pos default ∨ BranchCollision combine leaves pos leaf siblings := by
  induction siblings using List.reverseRecOn with
  | nil =>
    rw [List.length_nil, Nat.pow_zero, Nat.div_one, duplicatingRoot_zero_slice] at reached
    exact .inl reached
  | append_singleton siblings sibling ih =>
    rw [branchFrom_append_singleton, Nat.zero_add, List.length_append, List.length_singleton,
      duplicatingRoot_slice] at reached
    by_cases same : stepPair leaves.length siblings.length (pos / 2 ^ siblings.length)
        (branchFrom combine leaves.length 0 pos leaf siblings) sibling =
      nodePair combine leaves siblings.length (pos / 2 ^ (siblings.length + 1))
    · -- the last step is the tree's: the branch below it reached the tree's node
      rcases ih (eq_of_stepPair_eq_nodePair combine real same) with equal | ⟨height, lower, collides⟩
      · exact .inl equal
      · have front : (siblings ++ [sibling]).take height = siblings.take height :=
          List.take_append_of_le_length (Nat.le_of_lt lower)
        have entry : (siblings ++ [sibling]).getD height default = siblings.getD height default := by
          rw [List.getD_append _ _ _ _ lower]
        refine .inr ⟨height, by rw [List.length_append]; omega, ?_⟩
        rw [front, entry]
        exact collides
    · -- the last step combines another pair into the tree's root
      refine .inr ⟨siblings.length, by simp, ?_⟩
      rw [List.take_left, List.getD_append_right _ _ _ _ (Nat.le_refl _), Nat.sub_self]
      exact ⟨same, reached⟩

end Binding

end Merkle
