import Mathlib

/-! Bit fields: an index kept in the low `k` bits of a word with flags in the
bits above it. A flag is set with `|||` and tested with `&&&` against its bit,
and the index is recovered with the mask `2 ^ k - 1`. Every fact here is read
off bit by bit through `Nat.testBit`. -/

namespace Wire

/-- `x` with bit `j` set when `flag` holds. -/
def setBitIf (x j : Nat) (flag : Bool) : Nat := if flag then x ||| 2 ^ j else x

theorem testBit_setBitIf (x j i : Nat) (flag : Bool) :
    (setBitIf x j flag).testBit i = (x.testBit i || (flag && decide (j = i))) := by
  cases flag <;> simp [setBitIf, Nat.testBit_two_pow]

/-- The number whose bit `j` is `bit j` for each `j < count`, set one bit at a time. -/
def packBits (count : Nat) (bit : Nat → Bool) : Nat :=
  (List.range count).foldl (fun x j => setBitIf x j (bit j)) 0

theorem packBits_succ (count : Nat) (bit : Nat → Bool) :
    packBits (count + 1) bit = setBitIf (packBits count bit) count (bit count) := by
  rw [packBits, List.range_succ, List.foldl_append, List.foldl_cons, List.foldl_nil]
  rfl

theorem testBit_packBits (bit : Nat → Bool) (i : Nat) :
    ∀ count, (packBits count bit).testBit i = (decide (i < count) && bit i)
  | 0 => by simp [packBits]
  | count + 1 => by
    rw [packBits_succ, testBit_setBitIf, testBit_packBits bit i count]
    by_cases below : i < count
    · simp [below, Nat.lt_succ_of_lt below, Nat.ne_of_gt below]
    · by_cases here : i = count
      · subst here
        simp
      · have above : ¬i < count + 1 := by omega
        simp [below, above, Ne.symm here]

theorem packBits_lt (bit : Nat → Bool) : ∀ count, packBits count bit < 2 ^ count
  | 0 => by simp [packBits]
  | count + 1 => by
    have lower := packBits_lt bit count
    have grows : 2 ^ count < 2 ^ (count + 1) := Nat.pow_lt_pow_succ (by decide)
    rw [packBits_succ, setBitIf]
    split
    · exact Nat.or_lt_two_pow (Nat.lt_trans lower grows) grows
    · exact Nat.lt_trans lower grows

theorem testBit_and_mask (x k i : Nat) :
    (x &&& (2 ^ k - 1)).testBit i = (x.testBit i && decide (i < k)) := by
  rw [Nat.testBit_and, Nat.testBit_two_pow_sub_one]

theorem and_two_pow_eq_zero_iff (x j : Nat) : x &&& 2 ^ j = 0 ↔ x.testBit j = false := by
  rw [Nat.and_two_pow]
  cases x.testBit j <;> simp

theorem testBit_eq_false_of_lt_two_pow {x k i : Nat} (small : x < 2 ^ k) (above : k ≤ i) :
    x.testBit i = false :=
  Nat.testBit_lt_two_pow (lt_of_lt_of_le small (Nat.pow_le_pow_right (by decide) above))

theorem eq_two_pow_sub_one {x k : Nat} (small : x < 2 ^ k) (full : ∀ i < k, x.testBit i = true) :
    x = 2 ^ k - 1 := by
  apply Nat.eq_of_testBit_eq
  intro i
  rw [Nat.testBit_two_pow_sub_one]
  by_cases below : i < k
  · simp [full i below, below]
  · simp [testBit_eq_false_of_lt_two_pow small (Nat.le_of_not_lt below), below]

theorem and_clear_top_bit {x w j : Nat} (small : x < 2 ^ (j + 1)) (below : j < w) :
    x &&& (2 ^ w - 1 - 2 ^ j) = x % 2 ^ j := by
  have mask : 2 ^ w - 1 - 2 ^ j = 2 ^ w - (2 ^ j + 1) := by omega
  apply Nat.eq_of_testBit_eq
  intro i
  rw [Nat.testBit_and, mask, Nat.testBit_two_pow_sub_succ (Nat.pow_lt_pow_right (by decide) below),
    Nat.testBit_mod_two_pow, Nat.testBit_two_pow]
  by_cases lower : i < j
  · have : i < w := by omega
    simp [lower, this, Nat.ne_of_gt lower]
  · by_cases top : i = j
    · subst top
      simp
    · have : x.testBit i = false := testBit_eq_false_of_lt_two_pow small (by omega)
      simp [this, lower]

theorem shiftLeft_or_eq_add {a b n : Nat} (small : b < 2 ^ n) : a <<< n ||| b = a * 2 ^ n + b := by
  rw [← Nat.shiftLeft_add_eq_or_of_lt small, Nat.shiftLeft_eq]

theorem shiftLeft_eight_and (t : Nat) : (t <<< 8) &&& 0xff00 = t % 256 * 256 := by
  rw [show (0xff00 : Nat) = 0xff <<< 8 by rfl, ← Nat.shiftLeft_and_distrib,
    show (0xff : Nat) = 2 ^ 8 - 1 by rfl, Nat.and_two_pow_sub_one_eq_mod, Nat.shiftLeft_eq]

theorem and_shiftRight_eight {x : Nat} (small : x < 2 ^ 16) : (x &&& 0xff00) >>> 8 = x / 256 := by
  rw [show (0xff00 : Nat) = 0xff <<< 8 by rfl, Nat.shiftRight_and_distrib, Nat.shiftLeft_shiftRight,
    show (0xff : Nat) = 2 ^ 8 - 1 by rfl, Nat.and_two_pow_sub_one_eq_mod, Nat.shiftRight_eq_div_pow]
  omega

end Wire
