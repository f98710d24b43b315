import Elements.Crypto.Hash
import Elements.Tree.Merkle
import Mathlib.Data.Nat.Log

/-! `ComputeMerkleRoot` of `consensus/merkle.cpp`: levels of hashes paired
by `SHA256D64`, an odd level's last hash duplicated, with the `mutated` flag
raised when a pair of some level holds two equal hashes. The root is the
duplicating merkle tree of depth `⌈log₂ n⌉`; two leaf lists with the same
root and depth are equal, or one of them is flagged, or two different pairs
hashed by the two computations collide. -/

namespace Elements

open Merkle

variable (H : Hashes)

def hash64 (left right : Uint256) : Uint256 := H.Hash (left.data ++ right.data)

/-- `SHA256D64` over a level, one block per pair. -/
def SHA256D64 : List Uint256 → List Uint256
  | left :: right :: rest => hash64 H left right :: SHA256D64 rest
  | _ => []

/-- The test of the `mutated` loop: two equal hashes at `pos` and `pos + 1`,
for an even `pos`. -/
def pairsMutated : List Uint256 → Bool
  | left :: right :: rest => left == right || pairsMutated rest
  | _ => false

def padLevel (hashes : List Uint256) : List Uint256 :=
  if hashes.length % 2 = 1 then hashes ++ [hashes.getLastD Uint256.zero] else hashes

theorem length_SHA256D64 : ∀ hashes : List Uint256, (SHA256D64 H hashes).length = hashes.length / 2
  | _ :: _ :: rest => by
    rw [SHA256D64, List.length_cons, length_SHA256D64 rest, List.length_cons, List.length_cons]
    omega
  | [_] => by simp [SHA256D64]
  | [] => by simp [SHA256D64]

theorem length_padLevel (hashes : List Uint256) :
    (padLevel hashes).length = hashes.length + hashes.length % 2 := by
  unfold padLevel
  split <;> simp <;> omega

/-- The `while (hashes.size() > 1)` loop with the flag raised so far. -/
def ComputeMerkleRootLoop (mutation : Bool) (hashes : List Uint256) : Uint256 × Bool :=
  if 1 < hashes.length then
    ComputeMerkleRootLoop (mutation || pairsMutated hashes) (SHA256D64 H (padLevel hashes))
  else (hashes.headD Uint256.zero, mutation)
termination_by hashes.length
decreasing_by
  rw [length_SHA256D64, length_padLevel]
  omega

/-- The root, and the flag written through `mutated`. -/
def ComputeMerkleRoot (hashes : List Uint256) : Uint256 × Bool := ComputeMerkleRootLoop H false hashes

def hashedPairs (hashes : List Uint256) : List (Uint256 × Uint256) :=
  if 1 < hashes.length then pairsOf hashes ++ hashedPairs (SHA256D64 H (padLevel hashes)) else []
termination_by hashes.length
decreasing_by
  rw [length_SHA256D64, length_padLevel]
  omega

def Collision (hashes other : List Uint256) : Prop :=
  ∃ pair ∈ hashedPairs H hashes, ∃ otherPair ∈ hashedPairs H other,
    pair ≠ otherPair ∧ hash64 H pair.1 pair.2 = hash64 H otherPair.1 otherPair.2

theorem padLevel_cons_cons (left right : Uint256) (rest : List Uint256) :
    padLevel (left :: right :: rest) = left :: right :: padLevel rest := by
  unfold padLevel
  by_cases odd : rest.length % 2 = 1
  · have parity : (left :: right :: rest).length % 2 = 1 := by simp; omega
    rw [if_pos parity, if_pos odd]
    rcases List.eq_nil_or_concat rest with rfl | ⟨front, last, rfl⟩
    · simp at odd
    · simp [List.getLast?_cons, List.getLast?_append]
  · have parity : ¬(left :: right :: rest).length % 2 = 1 := by simp; omega
    rw [if_neg parity, if_neg odd]

theorem SHA256D64_padLevel : ∀ hashes : List Uint256,
    SHA256D64 H (padLevel hashes) = pairUp (hash64 H) hashes
  | left :: right :: rest => by
    rw [padLevel_cons_cons, SHA256D64, SHA256D64_padLevel rest, pairUp]
  | [_] => rfl
  | [] => rfl

theorem ComputeMerkleRootLoop_of_one_lt {hashes : List Uint256} (wide : 1 < hashes.length)
    (mutation : Bool) :
    ComputeMerkleRootLoop H mutation hashes =
      ComputeMerkleRootLoop H (mutation || pairsMutated hashes) (pairUp (hash64 H) hashes) := by
  rw [ComputeMerkleRootLoop, if_pos wide, SHA256D64_padLevel]

theorem ComputeMerkleRootLoop_of_le_one {hashes : List Uint256} (narrow : hashes.length ≤ 1)
    (mutation : Bool) :
    ComputeMerkleRootLoop H mutation hashes = (hashes.headD Uint256.zero, mutation) := by
  rw [ComputeMerkleRootLoop, if_neg (by omega)]

theorem hashedPairs_of_one_lt {hashes : List Uint256} (wide : 1 < hashes.length) :
    hashedPairs H hashes = pairsOf hashes ++ hashedPairs H (pairUp (hash64 H) hashes) := by
  rw [hashedPairs, if_pos wide, SHA256D64_padLevel]

theorem length_pairUp_lt {hashes : List Uint256} (wide : 1 < hashes.length) :
    (pairUp (hash64 H) hashes).length < hashes.length := by
  rw [length_pairUp]
  omega

theorem clog_pairUp {hashes : List Uint256} (wide : 1 < hashes.length) :
    Nat.clog 2 hashes.length = Nat.clog 2 (pairUp (hash64 H) hashes).length + 1 := by
  rw [length_pairUp, Nat.clog_of_two_le (by decide) wide,
    show hashes.length + 2 - 1 = hashes.length + 1 by omega]

theorem flag_ComputeMerkleRootLoop (mutation : Bool) (hashes : List Uint256) :
    (ComputeMerkleRootLoop H mutation hashes).2 =
      (mutation || (ComputeMerkleRootLoop H false hashes).2) := by
  induction hashes using WellFounded.induction (measure List.length).wf generalizing mutation with
  | h hashes ih =>
    by_cases wide : 1 < hashes.length
    · have shorter := length_pairUp_lt H wide
      rw [ComputeMerkleRootLoop_of_one_lt H wide, ComputeMerkleRootLoop_of_one_lt H wide,
        ih _ shorter, ih _ shorter (false || pairsMutated hashes), Bool.false_or, Bool.or_assoc]
    · rw [ComputeMerkleRootLoop_of_le_one H (by omega), ComputeMerkleRootLoop_of_le_one H (by omega),
        Bool.or_false]

theorem root_ComputeMerkleRootLoop (mutation : Bool) (hashes : List Uint256) :
    (ComputeMerkleRootLoop H mutation hashes).1 =
      duplicatingRoot (hash64 H) (Nat.clog 2 hashes.length) hashes := by
  induction hashes using WellFounded.induction (measure List.length).wf generalizing mutation with
  | h hashes ih =>
    by_cases wide : 1 < hashes.length
    · -- one level up: the tree one depth lower over the paired level
      have fits : hashes.length ≤ 2 ^ (Nat.clog 2 (pairUp (hash64 H) hashes).length + 1) := by
        rw [← clog_pairUp H wide]
        exact Nat.le_pow_clog (by decide) _
      rw [ComputeMerkleRootLoop_of_one_lt H wide, ih _ (length_pairUp_lt H wide), clog_pairUp H wide,
        duplicatingRoot_pairUp _ _ _ (by omega) fits]
    · rw [ComputeMerkleRootLoop_of_le_one H (by omega), Nat.clog_of_right_le_one (by omega),
        duplicatingRoot]
      rfl

theorem root_ComputeMerkleRoot_pairUp {hashes : List Uint256} (wide : 1 < hashes.length) :
    (ComputeMerkleRoot H hashes).1 = (ComputeMerkleRoot H (pairUp (hash64 H) hashes)).1 := by
  rw [ComputeMerkleRoot, ComputeMerkleRootLoop_of_one_lt H wide, root_ComputeMerkleRootLoop,
    ComputeMerkleRoot, root_ComputeMerkleRootLoop]

theorem flag_ComputeMerkleRoot_pairUp {hashes : List Uint256} (wide : 1 < hashes.length) :
    (ComputeMerkleRoot H hashes).2 =
      (pairsMutated hashes || (ComputeMerkleRoot H (pairUp (hash64 H) hashes)).2) := by
  rw [ComputeMerkleRoot, ComputeMerkleRootLoop_of_one_lt H wide, flag_ComputeMerkleRootLoop,
    Bool.false_or]
  rfl

theorem eq_or_pairsMutated_of_pairsOf_eq :
    ∀ {hashes other : List Uint256}, pairsOf hashes = pairsOf other →
      hashes = other ∨ pairsMutated hashes = true ∨ pairsMutated other = true
  | [], [], _ => .inl rfl
  | a :: b :: rest, c :: d :: rest', same => by
    simp only [pairsOf, List.cons.injEq, Prod.mk.injEq] at same
    rcases same with ⟨⟨rfl, rfl⟩, tails⟩
    rcases eq_or_pairsMutated_of_pairsOf_eq tails with rfl | mutated | mutated
    · exact .inl rfl
    · exact .inr (.inl (by simp [pairsMutated, mutated]))
    · exact .inr (.inr (by simp [pairsMutated, mutated]))
  | [a], [c], same => by
    simp only [pairsOf, List.cons.injEq, Prod.mk.injEq] at same
    rw [same.1.1]
    exact .inl rfl
  | [a], c :: d :: rest, same => by
    simp only [pairsOf, List.cons.injEq, Prod.mk.injEq] at same
    rcases same with ⟨⟨rfl, rfl⟩, _⟩
    exact .inr (.inr (by simp [pairsMutated]))
  | a :: b :: rest, [c], same => by
    simp only [pairsOf, List.cons.injEq, Prod.mk.injEq] at same
    rcases same with ⟨⟨rfl, rfl⟩, _⟩
    exact .inr (.inl (by simp [pairsMutated]))
  | [], [_], same => by simp [pairsOf] at same
  | [], _ :: _ :: _, same => by simp [pairsOf] at same
  | [_], [], same => by simp [pairsOf] at same
  | _ :: _ :: _, [], same => by simp [pairsOf] at same

theorem eq_or_mutated_or_collision :
    ∀ (depth : Nat) (hashes other : List Uint256), 0 < hashes.length → 0 < other.length →
      Nat.clog 2 hashes.length = depth → Nat.clog 2 other.length = depth →
      (ComputeMerkleRoot H hashes).1 = (ComputeMerkleRoot H other).1 →
      hashes = other ∨ (ComputeMerkleRoot H hashes).2 = true ∨ (ComputeMerkleRoot H other).2 = true ∨
        Collision H hashes other
  | 0, hashes, other, nonempty, nonempty', single, single', same => by
    -- depth zero: one leaf each, which is its root
    have one : hashes.length = 1 := by
      by_contra wide
      have : 0 < Nat.clog 2 hashes.length := Nat.clog_pos (by decide) (by omega)
      omega
    have one' : other.length = 1 := by
      by_contra wide
      have : 0 < Nat.clog 2 other.length := Nat.clog_pos (by decide) (by omega)
      omega
    rcases List.length_eq_one_iff.mp one with ⟨leaf, rfl⟩
    rcases List.length_eq_one_iff.mp one' with ⟨leaf', rfl⟩
    rw [ComputeMerkleRoot, ComputeMerkleRoot, ComputeMerkleRootLoop_of_le_one H (by simp),
      ComputeMerkleRootLoop_of_le_one H (by simp)] at same
    exact .inl (by simp only [List.headD_cons] at same; rw [same])
  | depth + 1, hashes, other, _, _, deep, deep', same => by
    have wide : 1 < hashes.length := by
      by_contra narrow
      rw [Nat.clog_of_right_le_one (by omega)] at deep
      omega
    have wide' : 1 < other.length := by
      by_contra narrow
      rw [Nat.clog_of_right_le_one (by omega)] at deep'
      omega
    -- both roots are the roots of the next levels, one depth lower
    rw [root_ComputeMerkleRoot_pairUp H wide, root_ComputeMerkleRoot_pairUp H wide'] at same
    rw [flag_ComputeMerkleRoot_pairUp H wide, flag_ComputeMerkleRoot_pairUp H wide', Collision,
      hashedPairs_of_one_lt H wide, hashedPairs_of_one_lt H wide']
    have next := eq_or_mutated_or_collision depth (pairUp (hash64 H) hashes) (pairUp (hash64 H) other)
      (by rw [length_pairUp]; omega) (by rw [length_pairUp]; omega)
      (by rw [clog_pairUp H wide] at deep; omega) (by rw [clog_pairUp H wide'] at deep'; omega) same
    rcases next with paired | mutated | mutated | ⟨pair, member, otherPair, otherMember, differ, collide⟩
    · -- the next levels agree: the pairs are equal, or two of them collide
      rw [pairUp_eq_map, pairUp_eq_map] at paired
      rcases eq_or_collision_of_map_eq _ paired with pairs | ⟨pair, member, otherPair, otherMember, differ, collide⟩
      · rcases eq_or_pairsMutated_of_pairsOf_eq pairs with equal | mutated | mutated
        · exact .inl equal
        · exact .inr (.inl (by simp [mutated]))
        · exact .inr (.inr (.inl (by simp [mutated])))
      · exact .inr (.inr (.inr ⟨pair, List.mem_append_left _ member, otherPair,
          List.mem_append_left _ otherMember, differ, collide⟩))
    · exact .inr (.inl (by simp [mutated]))
    · exact .inr (.inr (.inl (by simp [mutated])))
    · exact .inr (.inr (.inr ⟨pair, List.mem_append_right _ member, otherPair,
        List.mem_append_right _ otherMember, differ, collide⟩))

/-- Two different leaf lists of one depth with one root: one of the two
computations raises `mutated`, or two different pairs that they hash have
the same double SHA-256. For every list the root is the duplicating tree of
depth `⌈log₂ n⌉`. -/
theorem ComputeMerkleRoot_flags_malleation :
    (∀ hashes other : List Uint256, hashes ≠ [] → other ≠ [] → hashes ≠ other →
      Nat.clog 2 hashes.length = Nat.clog 2 other.length →
      (ComputeMerkleRoot H hashes).1 = (ComputeMerkleRoot H other).1 →
      (ComputeMerkleRoot H hashes).2 = true ∨ (ComputeMerkleRoot H other).2 = true ∨
        Collision H hashes other) ∧
    ∀ hashes : List Uint256,
      (ComputeMerkleRoot H hashes).1 = duplicatingRoot (hash64 H) (Nat.clog 2 hashes.length) hashes := by
  refine ⟨fun hashes other nonempty nonempty' distinct depth same => ?_,
    fun hashes => root_ComputeMerkleRootLoop H false hashes⟩
  rcases eq_or_mutated_or_collision H _ hashes other (List.length_pos_iff.mpr nonempty)
      (List.length_pos_iff.mpr nonempty') rfl depth.symm same with equal | flagged
  · exact absurd equal distinct
  · exact flagged

end Elements
