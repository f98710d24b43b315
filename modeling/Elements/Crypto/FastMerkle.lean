import Elements.Crypto.Hash
import Elements.Tree.Merkle
import Elements.Wire.Bits

/-! `ComputeFastMerkleRoot` computes the reference fast merkle tree. The
first loop is a binary counter of subtrees: after `count` leaves, `inner[i]`
holds the root of the block of `2 ^ i` leaves that bit `i` of `count` stands
for, at every set bit, and nothing is assumed of the other slots. The final
sweep folds those roots from the lowest block up, skipping the levels where
`count` has no block. -/

namespace Elements

namespace Hashes

open Merkle

variable (H : Hashes)

/-- What `inner` holds after `leaves`: at each set bit of their count, the
root of that bit's block. The other slots, and any past the 32 the source
allocates, are unconstrained. -/
structure InnerHolds (leaves inner : List Uint256) : Prop where
  length_inner : 32 ≤ inner.length
  root_at : ∀ i, leaves.length.testBit i = true →
    inner.getD i Uint256.zero = fastRoot H.MerkleHash_Sha256Midstate (block leaves leaves.length i)

theorem InnerHolds.initial : H.InnerHolds [] (List.replicate 32 Uint256.zero) :=
  ⟨by simp, fun i set => by simp at set⟩

section Lists

variable {leaves : List Uint256} {leaf : Uint256}

theorem drop_eq_block_append {count j : Nat} (length : leaves.length + 1 = count)
    (fits : 2 ^ (j + 1) ≤ count) :
    (leaves ++ [leaf]).drop (count - 2 ^ (j + 1)) =
      (leaves.drop (count - 2 ^ (j + 1))).take (2 ^ j) ++ (leaves ++ [leaf]).drop (count - 2 ^ j) := by
  have twice : 2 ^ (j + 1) = 2 ^ j + 2 ^ j := by rw [Nat.pow_succ]; omega
  have pos := Nat.two_pow_pos j
  have split := List.take_append_drop (2 ^ j) ((leaves ++ [leaf]).drop (count - 2 ^ (j + 1)))
  conv at split => lhs; rw [List.drop_drop, List.drop_append_of_le_length (by omega),
    List.take_append_of_le_length (by simp; omega)]
  rw [← split]
  congr 2
  omega

theorem block_append_of_le {count i : Nat} (inside : blockStart count i + 2 ^ i ≤ leaves.length) :
    ((leaves ++ [leaf]).drop (blockStart count i)).take (2 ^ i) =
      (leaves.drop (blockStart count i)).take (2 ^ i) := by
  have pos := Nat.two_pow_pos i
  rw [List.drop_append_of_le_length (by omega), List.take_append_of_le_length (by simp; omega)]

end Lists

theorem absorbLeaf_spec {leaves inner : List Uint256} (holds : H.InnerHolds leaves inner)
    (leaf : Uint256) :
    ∀ fuel level, leaves.length + 1 < 2 ^ (level + fuel) → (leaves.length + 1) % 2 ^ level = 0 →
      ∃ t, level ≤ t ∧ (leaves.length + 1) % 2 ^ t = 0 ∧ (leaves.length + 1).testBit t = true ∧
        H.absorbLeaf inner (leaves.length + 1) fuel level
            (fastRoot H.MerkleHash_Sha256Midstate
              ((leaves ++ [leaf]).drop (leaves.length + 1 - 2 ^ level))) =
          (t, fastRoot H.MerkleHash_Sha256Midstate ((leaves ++ [leaf]).drop (leaves.length + 1 - 2 ^ t))) := by
  intro fuel
  induction fuel with
  | zero =>
    intro level small low
    have below : leaves.length + 1 < 2 ^ level := by simpa using small
    rw [Nat.mod_eq_of_lt below] at low
    omega
  | succ fuel ih =>
    intro level small low
    rw [absorbLeaf]
    cases set : (leaves.length + 1).testBit level with
    | true => exact ⟨level, Nat.le_refl _, low, set, rfl⟩
    | false =>
      -- bit `level` is clear: the subtree stored there is the block just before
      have low' := mod_two_pow_succ_eq_zero low set
      have fits : 2 ^ (level + 1) ≤ leaves.length + 1 :=
        Nat.le_of_dvd (by omega) (Nat.dvd_of_mod_eq_zero low')
      have stored := holds.root_at level (by simpa using pred_testBit (by omega) low')
      have start : blockStart leaves.length level = leaves.length + 1 - 2 ^ (level + 1) := by
        simpa using (blockStart_pred (by omega) low' : blockStart (leaves.length + 1 - 1) level = _)
      have combined : H.MerkleHash_Sha256Midstate (inner.getD level Uint256.zero)
            (fastRoot H.MerkleHash_Sha256Midstate ((leaves ++ [leaf]).drop (leaves.length + 1 - 2 ^ level))) =
          fastRoot H.MerkleHash_Sha256Midstate
            ((leaves ++ [leaf]).drop (leaves.length + 1 - 2 ^ (level + 1))) := by
        have twice : 2 ^ (level + 1) = 2 ^ level + 2 ^ level := by rw [Nat.pow_succ]; omega
        have blockLength : ((leaves.drop (leaves.length + 1 - 2 ^ (level + 1))).take (2 ^ level)).length =
            2 ^ level := by
          simp only [List.length_take, List.length_drop]
          omega
        rw [stored, block, start, drop_eq_block_append rfl fits,
          fastRoot_append _ blockLength
            (by simp only [List.length_drop, List.length_append, List.length_singleton]; omega)
            (by simp only [List.length_drop, List.length_append, List.length_singleton]; omega)]
      rw [if_neg (by simp), combined]
      rcases ih (level + 1) (by rw [Nat.add_right_comm]; exact small) low' with
        ⟨t, above, lowT, setT, absorbed⟩
      exact ⟨t, by omega, lowT, setT, absorbed⟩

theorem InnerHolds.push {leaves inner : List Uint256} (holds : H.InnerHolds leaves inner)
    (leaf : Uint256) {t : Nat} (low : (leaves.length + 1) % 2 ^ t = 0)
    (set : (leaves.length + 1).testBit t = true) (small : t < 32) :
    H.InnerHolds (leaves ++ [leaf])
      (inner.set t (fastRoot H.MerkleHash_Sha256Midstate
        ((leaves ++ [leaf]).drop (leaves.length + 1 - 2 ^ t)))) := by
  refine ⟨by rw [List.length_set]; exact holds.length_inner, fun i setI => ?_⟩
  rw [List.length_append, List.length_singleton] at setI ⊢
  rcases Nat.lt_trichotomy i t with below | rfl | above
  · rw [testBit_eq_false_of_mod low below] at setI
    cases setI
  · -- the new subtree is the last block
    have lengthTail : ((leaves ++ [leaf]).drop (leaves.length + 1 - 2 ^ i)).length = 2 ^ i := by
      have fits := Nat.le_of_dvd (by omega) (Nat.dvd_of_mod_eq_zero low)
      simp only [List.length_drop, List.length_append, List.length_singleton]
      omega
    rw [List.getD_eq_getElem?_getD, List.getElem?_set_self (by have := holds.length_inner; omega),
      Option.getD_some, block, blockStart_lowest low set, List.take_of_length_le (by omega)]
  · -- a higher block was complete before the new leaf
    have setBefore : leaves.length.testBit i = true := by
      simpa using (pred_testBit_above set above).trans setI
    have start : blockStart (leaves.length + 1) i = blockStart leaves.length i := by
      simpa using (blockStart_pred_above set above).symm
    have inside : blockStart leaves.length i + 2 ^ i ≤ leaves.length := by
      rw [blockStart_add_of_testBit setBefore]
      exact Nat.div_mul_le_self _ _
    rw [List.getD_eq_getElem?_getD, List.getElem?_set_ne (by omega), ← List.getD_eq_getElem?_getD,
      holds.root_at i setBefore, block, block, start, block_append_of_le inside]

theorem processLeaves_spec :
    ∀ (rest leaves inner : List Uint256), H.InnerHolds leaves inner →
      leaves.length + rest.length < 2 ^ 31 →
      H.InnerHolds (leaves ++ rest) (H.processLeaves inner leaves.length rest).1 ∧
        (H.processLeaves inner leaves.length rest).2 = leaves.length + rest.length
  | [], leaves, inner, holds, _ => by
    rw [processLeaves, List.append_nil]
    exact ⟨holds, rfl⟩
  | leaf :: rest, leaves, inner, holds, small => by
    have fits : leaves.length + 1 < 2 ^ (0 + 32) := by
      simp only [List.length_cons] at small
      omega
    have first : fastRoot H.MerkleHash_Sha256Midstate
        ((leaves ++ [leaf]).drop (leaves.length + 1 - 2 ^ 0)) = leaf := by
      simp
    rcases H.absorbLeaf_spec holds leaf 32 0 fits (Nat.mod_one _) with ⟨t, _, low, set, absorbed⟩
    rw [first] at absorbed
    have below : t < 32 := by
      by_contra above
      rw [Wire.testBit_eq_false_of_lt_two_pow (by simpa using fits) (Nat.le_of_not_lt above)] at set
      cases set
    have pushed := holds.push H leaf low set below
    have next := processLeaves_spec rest (leaves ++ [leaf]) _ pushed (by simp at small ⊢; omega)
    have length : (leaves ++ [leaf]).length = leaves.length + 1 := by simp
    have joined : leaves ++ [leaf] ++ rest = leaves ++ leaf :: rest := by simp
    rw [length, joined] at next
    rw [processLeaves, absorbed]
    exact ⟨next.1, next.2.trans (by simp only [List.length_cons]; omega)⟩

theorem skipZeros_spec {count : Nat} (pos : 0 < count) :
    ∀ fuel level, count < 2 ^ (level + fuel) → count % 2 ^ level = 0 →
      ∃ t, level ≤ t ∧ count % 2 ^ t = 0 ∧ count.testBit t = true ∧ skipZeros count fuel level = t := by
  intro fuel
  induction fuel with
  | zero =>
    intro level small low
    have below : count < 2 ^ level := by simpa using small
    rw [Nat.mod_eq_of_lt below] at low
    omega
  | succ fuel ih =>
    intro level small low
    rw [skipZeros]
    cases set : count.testBit level with
    | true => exact ⟨level, Nat.le_refl _, low, set, rfl⟩
    | false =>
      rw [if_neg (by simp)]
      rcases ih (level + 1) (by rw [Nat.add_right_comm]; exact small) (mod_two_pow_succ_eq_zero low set) with
        ⟨t, above, lowT, setT, skipped⟩
      exact ⟨t, by omega, lowT, setT, skipped⟩

theorem sweepZeros_spec {leaves inner : List Uint256} (holds : H.InnerHolds leaves inner)
    {count : Nat} :
    ∀ fuel level, count = (leaves.length / 2 ^ level + 1) * 2 ^ level → count < 2 ^ (level + fuel) →
      leaves.length / 2 ^ level * 2 ^ level < leaves.length →
      ∃ L, level ≤ L ∧ count = (2 * (leaves.length / 2 ^ (L + 1)) + 1) * 2 ^ L ∧
        blockStart leaves.length L < leaves.length ∧
        H.sweepZeros inner count fuel level
            (fastRoot H.MerkleHash_Sha256Midstate (leaves.drop (leaves.length / 2 ^ level * 2 ^ level))) =
          (L, fastRoot H.MerkleHash_Sha256Midstate (leaves.drop (blockStart leaves.length L))) := by
  intro fuel
  induction fuel with
  | zero =>
    intro level rounded small _
    have atLeast : 2 ^ level ≤ count := by
      rw [rounded]
      exact Nat.le_mul_of_pos_left _ (Nat.succ_pos _)
    rw [Nat.add_zero] at small
    omega
  | succ fuel ih =>
    intro level rounded small tail
    have halves := Nat.div_add_mod (leaves.length / 2 ^ level) 2
    have half : leaves.length / 2 ^ (level + 1) = leaves.length / 2 ^ level / 2 := by
      rw [Nat.pow_succ, Nat.div_div_eq_div_mul]
    have countBit : count.testBit level = decide ((leaves.length / 2 ^ level + 1) % 2 = 1) := by
      rw [rounded, Nat.testBit_mul_two_pow]
      simp
    rw [sweepZeros]
    cases set : count.testBit level with
    | true =>
      -- the leaf count has no block here: the sweep stops with its carry
      have even : leaves.length / 2 ^ level % 2 = 0 := by
        rw [set] at countBit
        simp at countBit
        omega
      have clear : leaves.length.testBit level = false := by
        simp [Nat.testBit_eq_decide_div_mod_eq, even]
      refine ⟨level, Nat.le_refl _, ?_, ?_, by rw [blockStart_of_testBit_eq_false clear]; rfl⟩
      · rw [rounded, half]
        congr 1
        omega
      · rwa [blockStart_of_testBit_eq_false clear]
    | false =>
      -- the leaf count has a block here: fold its stored subtree in
      have odd : leaves.length / 2 ^ level % 2 = 1 := by
        rw [set] at countBit
        simp at countBit
        omega
      have blockSet : leaves.length.testBit level = true := by
        simp [Nat.testBit_eq_decide_div_mod_eq, odd]
      have ends := blockStart_add_of_testBit blockSet
      have split := Nat.div_add_mod' leaves.length (2 ^ level)
      have rest := Nat.mod_lt leaves.length (Nat.two_pow_pos level)
      have blockLength : (block leaves leaves.length level).length = 2 ^ level := by
        simp only [block, List.length_take, List.length_drop]
        omega
      have combined : H.MerkleHash_Sha256Midstate (inner.getD level Uint256.zero)
            (fastRoot H.MerkleHash_Sha256Midstate (leaves.drop (leaves.length / 2 ^ level * 2 ^ level))) =
          fastRoot H.MerkleHash_Sha256Midstate (leaves.drop (blockStart leaves.length level)) := by
        rw [holds.root_at level blockSet, ← block_append_drop leaves blockSet,
          fastRoot_append _ blockLength (by simp only [List.length_drop]; omega)
            (by simp only [List.length_drop]; omega)]
      have carried : count = (leaves.length / 2 ^ (level + 1) + 1) * 2 ^ (level + 1) := by
        have doubled : leaves.length / 2 ^ level + 1 = 2 * (leaves.length / 2 ^ (level + 1) + 1) := by
          omega
        rw [rounded, doubled, Nat.pow_succ]
        ring
      rw [if_neg (by simp), combined]
      rcases ih (level + 1) carried (by rw [Nat.add_right_comm]; exact small) (by rw [← blockStart]; omega) with
        ⟨L, above, roundedL, tailL, swept⟩
      exact ⟨L, by omega, roundedL, tailL, swept⟩

theorem sweep_spec {leaves inner : List Uint256} (holds : H.InnerHolds leaves inner)
    (small : leaves.length < 2 ^ 31) :
    ∀ fuel count level, count = (2 * (leaves.length / 2 ^ (level + 1)) + 1) * 2 ^ level →
      blockStart leaves.length level < leaves.length → leaves.length < 2 ^ (level + 1 + fuel) →
      H.sweep inner fuel count level
          (fastRoot H.MerkleHash_Sha256Midstate (leaves.drop (blockStart leaves.length level))) =
        fastRoot H.MerkleHash_Sha256Midstate leaves := by
  intro fuel
  induction fuel with
  | zero =>
    intro count level _ _ bound
    have none : leaves.length / 2 ^ (level + 1) = 0 := Nat.div_eq_of_lt (by simpa using bound)
    rw [sweep, blockStart, none, Nat.zero_mul, List.drop_zero]
  | succ fuel ih =>
    intro count level rounded tail bound
    rw [sweep]
    by_cases top : count = 2 ^ level
    · -- no block above this level: the root is complete
      have none : leaves.length / 2 ^ (level + 1) = 0 := by
        rw [rounded] at top
        have once := Nat.eq_of_mul_eq_mul_right (Nat.two_pow_pos level) (top.trans (Nat.one_mul _).symm)
        omega
      rw [if_pos top, blockStart, none, Nat.zero_mul, List.drop_zero]
    · rw [if_neg top]
      have below : leaves.length / 2 ^ (level + 1) + 1 < 2 ^ 32 := by
        have := Nat.div_le_self leaves.length (2 ^ (level + 1))
        omega
      have carried : count + 2 ^ level =
          (leaves.length / 2 ^ (level + 1) + 1) * 2 ^ (level + 1) := by
        rw [rounded, Nat.pow_succ]
        ring
      have fits : count + 2 ^ level < 2 ^ (level + 1 + 32) := by
        have split : 2 ^ (level + 1 + 32) = 2 ^ 32 * 2 ^ (level + 1) := by
          rw [Nat.pow_add, Nat.mul_comm]
        rw [carried, split]
        exact Nat.mul_lt_mul_of_pos_right below (Nat.two_pow_pos _)
      rcases H.sweepZeros_spec holds 32 (level + 1) carried fits tail with
        ⟨L, above, roundedL, tailL, swept⟩
      rw [blockStart] at swept ⊢
      dsimp only
      rw [swept]
      exact ih _ L roundedL tailL
        (Nat.lt_of_lt_of_le bound (Nat.pow_le_pow_right (by decide) (by omega)))

theorem finish_spec {leaves inner : List Uint256} (holds : H.InnerHolds leaves inner)
    (nonempty : 0 < leaves.length) (small : leaves.length < 2 ^ 31) :
    H.sweep inner 32 leaves.length (skipZeros leaves.length 32 0)
        (inner.getD (skipZeros leaves.length 32 0) Uint256.zero) =
      fastRoot H.MerkleHash_Sha256Midstate leaves := by
  rcases skipZeros_spec nonempty 32 0 (by omega) (Nat.mod_one _) with ⟨t, _, low, set, skipped⟩
  have fits := Nat.le_of_dvd nonempty (Nat.dvd_of_mod_eq_zero low)
  have lowest : inner.getD t Uint256.zero =
      fastRoot H.MerkleHash_Sha256Midstate (leaves.drop (blockStart leaves.length t)) := by
    rw [holds.root_at t set, block, List.take_of_length_le]
    rw [List.length_drop, blockStart_lowest low set]
    omega
  have bound : leaves.length < 2 ^ (t + 1 + 32) :=
    Nat.lt_of_lt_of_le small (Nat.pow_le_pow_right (by decide) (by omega))
  rw [skipped, lowest]
  exact H.sweep_spec holds small 32 _ t (lowest_eq low set)
    (by rw [blockStart_lowest low set]; omega) bound

/-- `ComputeFastMerkleRoot` is the fast merkle root of its leaves; and from
any state of the first loop whose slots at the set bits of the count hold
their blocks' roots, whatever the other slots and any slots past 32 hold,
the rest of the computation returns the root of all the leaves, so that no
other slot is ever read. -/
theorem ComputeFastMerkleRoot_eq_fastRoot :
    (∀ hashes : List Uint256, hashes ≠ [] → hashes.length < 2 ^ 31 →
      H.ComputeFastMerkleRoot hashes = fastRoot H.MerkleHash_Sha256Midstate hashes) ∧
    ∀ leaves inner rest : List Uint256, H.InnerHolds leaves inner →
      0 < leaves.length + rest.length → leaves.length + rest.length < 2 ^ 31 →
      H.sweep (H.processLeaves inner leaves.length rest).1 32 (H.processLeaves inner leaves.length rest).2
          (skipZeros (H.processLeaves inner leaves.length rest).2 32 0)
          ((H.processLeaves inner leaves.length rest).1.getD
            (skipZeros (H.processLeaves inner leaves.length rest).2 32 0) Uint256.zero) =
        fastRoot H.MerkleHash_Sha256Midstate (leaves ++ rest) := by
  have finishes : ∀ leaves inner rest : List Uint256, H.InnerHolds leaves inner →
      0 < leaves.length + rest.length → leaves.length + rest.length < 2 ^ 31 →
      H.sweep (H.processLeaves inner leaves.length rest).1 32 (H.processLeaves inner leaves.length rest).2
          (skipZeros (H.processLeaves inner leaves.length rest).2 32 0)
          ((H.processLeaves inner leaves.length rest).1.getD
            (skipZeros (H.processLeaves inner leaves.length rest).2 32 0) Uint256.zero) =
        fastRoot H.MerkleHash_Sha256Midstate (leaves ++ rest) := by
    intro leaves inner rest holds nonempty small
    rcases H.processLeaves_spec rest leaves inner holds small with ⟨processed, counted⟩
    have length : (leaves ++ rest).length = leaves.length + rest.length := List.length_append
    rw [counted, ← length]
    exact H.finish_spec processed (by omega) (by omega)
  refine ⟨fun hashes nonempty small => ?_, finishes⟩
  have whole := finishes [] _ hashes (InnerHolds.initial H) (by simpa using List.length_pos_iff.mpr nonempty)
    (by simpa using small)
  rw [List.nil_append] at whole
  rw [ComputeFastMerkleRoot, if_neg (by simpa using nonempty)]
  exact whole

end Hashes

end Elements
