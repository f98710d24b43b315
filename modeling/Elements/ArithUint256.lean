import Elements.Machine.Words
import Elements.Uint256
import Elements.Wire.Bits
import Elements.Wire.Digits

/-! `arith_uint256` of `arith_uint256.h`: a 256-bit unsigned integer kept as eight 32-bit words,
least significant first, with the limb loops of its shifts, `bits()`, `GetLow64()`, the
comparisons, and the conversion from `uint256`. Each operation is shown to compute its meaning
on the number the words stand for. -/

namespace Elements

open Wire Words

namespace arith_uint256

def WIDTH : Nat := 256 / 32

end arith_uint256

/-- `base_uint<256>`: the array `pn` of `WIDTH` words. -/
structure arith_uint256 where
  pn : List UInt32
  length_pn : pn.length = arith_uint256.WIDTH
  deriving DecidableEq

namespace arith_uint256

def toNat (x : arith_uint256) : Nat := value x.pn

/-- `base_uint(uint64_t b)`: the low two words. -/
def ofUInt64 (b : UInt64) : arith_uint256 :=
  ⟨b.toUInt32 :: (b >>> 32).toUInt32 :: List.replicate (WIDTH - 2) 0, rfl⟩

/-- One pass of the loop of `operator<<=`, for the word `i` of the copy `a`: its high bits go
one word above the target word, its low bits to the target word `i + k`. -/
def shiftLeftPass (a : List UInt32) (k shift : Nat) (pn : List UInt32) (i : Nat) : List UInt32 :=
  let pn :=
    if i + k + 1 < WIDTH ∧ shift ≠ 0 then pn.modify (i + k + 1) (· ||| a.getD i 0 >>> UInt32.ofNat (32 - shift))
    else pn
  if i + k < WIDTH then pn.modify (i + k) (· ||| a.getD i 0 <<< UInt32.ofNat shift) else pn

/-- `operator<<=(shift)`: the words cleared, then `shift / 32` whole words and `shift % 32` bits. -/
def shiftLeft (x : arith_uint256) (shift : Nat) : arith_uint256 where
  pn := (List.range WIDTH).foldl (shiftLeftPass x.pn (shift / 32) (shift % 32)) (List.replicate WIDTH 0)
  length_pn := by
    rw [length_foldl_range (fun pn i => by unfold shiftLeftPass; split_ifs <;> simp), List.length_replicate]

/-- One pass of the loop of `operator>>=`: the low bits of word `i` go one word below the target
word `i - k`, its high bits to the target word. -/
def shiftRightPass (a : List UInt32) (k shift : Nat) (pn : List UInt32) (i : Nat) : List UInt32 :=
  let pn :=
    if k + 1 ≤ i ∧ shift ≠ 0 then pn.modify (i - k - 1) (· ||| a.getD i 0 <<< UInt32.ofNat (32 - shift))
    else pn
  if k ≤ i then pn.modify (i - k) (· ||| a.getD i 0 >>> UInt32.ofNat shift) else pn

def shiftRight (x : arith_uint256) (shift : Nat) : arith_uint256 where
  pn := (List.range WIDTH).foldl (shiftRightPass x.pn (shift / 32) (shift % 32)) (List.replicate WIDTH 0)
  length_pn := by
    rw [length_foldl_range (fun pn i => by unfold shiftRightPass; split_ifs <;> simp), List.length_replicate]

/-- The inner loop of `bits()`: one more than the highest bit among `nbits .. 1` that is set, or
one when none is. -/
def bitsInWord (w : UInt32) : Nat → Nat
  | 0 => 1
  | nbits + 1 => if w &&& 1 <<< UInt32.ofNat (nbits + 1) ≠ 0 then nbits + 2 else bitsInWord w nbits

/-- The outer loop of `bits()`, over the words below `pos`, the highest first. -/
def bitsLoop (pn : List UInt32) : Nat → Nat
  | 0 => 0
  | pos + 1 => if pn.getD pos 0 ≠ 0 then 32 * pos + bitsInWord (pn.getD pos 0) 31 else bitsLoop pn pos

/-- `bits()`: the position of the highest bit set plus one, or zero. -/
def bits (x : arith_uint256) : Nat := bitsLoop x.pn WIDTH

def GetLow64 (x : arith_uint256) : UInt64 := (x.pn.getD 0 0).toUInt64 ||| (x.pn.getD 1 0).toUInt64 <<< 32

/-- The loop of `CompareTo` over the words below `i`, the highest first. -/
def compareFrom (a b : List UInt32) : Nat → Int
  | 0 => 0
  | i + 1 =>
      if a.getD i 0 < b.getD i 0 then -1
      else if a.getD i 0 > b.getD i 0 then 1
      else compareFrom a b i

def CompareTo (x b : arith_uint256) : Int := compareFrom x.pn b.pn WIDTH

def gt (a b : arith_uint256) : Bool := a.CompareTo b > 0

/-- `EqualTo(uint64_t b)`: the words above the second are zero and the low two are those of `b`. -/
def EqualTo (x : arith_uint256) (b : UInt64) : Bool :=
  (List.range' 2 (WIDTH - 2)).all (fun i => x.pn.getD i 0 == 0) &&
    (x.pn.getD 1 0).toUInt64 == b >>> 32 && (x.pn.getD 0 0).toUInt64 == (b &&& 0xffffffff)

end arith_uint256

/-- `ReadLE32` of `crypto/common.h`: four bytes, least significant first. -/
def ReadLE32 (ptr : Bytes) : UInt32 := UInt32.ofNat (valueLE (ptr.take 4))

/-- `UintToArith256`: the words read from the 32 bytes, four at a time. -/
def UintToArith256 (a : Uint256) : arith_uint256 :=
  ⟨(List.range arith_uint256.WIDTH).map (fun x => ReadLE32 (a.data.drop (x * 4))), by simp⟩

namespace arith_uint256

section Shifts

variable {a : List UInt32} {k shift : Nat}

theorem length_shiftLeftPass (pn : List UInt32) (i : Nat) : (shiftLeftPass a k shift pn i).length = pn.length := by
  unfold shiftLeftPass
  split_ifs <;> simp

theorem length_shiftRightPass (pn : List UInt32) (i : Nat) : (shiftRightPass a k shift pn i).length = pn.length := by
  unfold shiftRightPass
  split_ifs <;> simp

/-- What pass `i` of `operator<<=` sets in bit `b` of word `j`. -/
def ShiftLeftSets (a : List UInt32) (k shift i j b : Nat) : Prop :=
  j < WIDTH ∧ ((j = i + k ∧ (a.getD i 0 <<< UInt32.ofNat shift).toNat.testBit b = true) ∨
    (shift ≠ 0 ∧ j = i + k + 1 ∧ (a.getD i 0 >>> UInt32.ofNat (32 - shift)).toNat.testBit b = true))

/-- What pass `i` of `operator>>=` sets in bit `b` of word `j`. -/
def ShiftRightSets (a : List UInt32) (k shift i j b : Nat) : Prop :=
  j < WIDTH ∧ ((k ≤ i ∧ j = i - k ∧ (a.getD i 0 >>> UInt32.ofNat shift).toNat.testBit b = true) ∨
    (shift ≠ 0 ∧ k + 1 ≤ i ∧ j = i - k - 1 ∧ (a.getD i 0 <<< UInt32.ofNat (32 - shift)).toNat.testBit b = true))

theorem testBit_shiftLeftPass {pn : List UInt32} (sized : pn.length = WIDTH) (i j b : Nat) :
    ((shiftLeftPass a k shift pn i).getD j 0).toNat.testBit b = true ↔
      (pn.getD j 0).toNat.testBit b = true ∨ ShiftLeftSets a k shift i j b := by
  unfold shiftLeftPass ShiftLeftSets
  split_ifs with high low low <;>
    simp only [testBit_getD_modify_or, List.length_modify, sized, Bool.or_eq_true, Bool.and_eq_true,
      decide_eq_true_eq] <;>
    grind

theorem testBit_shiftRightPass {pn : List UInt32} (sized : pn.length = WIDTH) (i j b : Nat) :
    ((shiftRightPass a k shift pn i).getD j 0).toNat.testBit b = true ↔
      (pn.getD j 0).toNat.testBit b = true ∨ ShiftRightSets a k shift i j b := by
  unfold shiftRightPass ShiftRightSets
  split_ifs with low high high <;>
    simp only [testBit_getD_modify_or, List.length_modify, sized, Bool.or_eq_true, Bool.and_eq_true,
      decide_eq_true_eq] <;>
    grind

theorem width_eq : WIDTH = 8 := rfl

theorem getD_pn_of_le (x : arith_uint256) {i : Nat} (outside : WIDTH ≤ i) : x.pn.getD i 0 = 0 :=
  List.getD_eq_default _ _ (by rw [x.length_pn]; exact outside)

theorem shiftLeftSets_iff {i j b : Nat} (shiftSmall : shift < 32) (small : b < 32) :
    ShiftLeftSets a k shift i j b ↔ j < WIDTH ∧
      ((j = i + k ∧ shift ≤ b ∧ (a.getD i 0).toNat.testBit (b - shift) = true) ∨
        (shift ≠ 0 ∧ j = i + k + 1 ∧ (a.getD i 0).toNat.testBit (32 - shift + b) = true)) := by
  unfold ShiftLeftSets
  rw [testBit_shiftLeft_word _ shiftSmall]
  by_cases zero : shift = 0
  · simp [zero, small]
  · rw [testBit_shiftRight_word _ (by omega)]
    simp [small]

theorem shiftRightSets_iff {i j b : Nat} (shiftSmall : shift < 32) (small : b < 32) :
    ShiftRightSets a k shift i j b ↔ j < WIDTH ∧
      ((k ≤ i ∧ j = i - k ∧ (a.getD i 0).toNat.testBit (shift + b) = true) ∨
        (shift ≠ 0 ∧ k + 1 ≤ i ∧ j = i - k - 1 ∧ 32 - shift ≤ b ∧
          (a.getD i 0).toNat.testBit (b - (32 - shift)) = true)) := by
  unfold ShiftRightSets
  rw [testBit_shiftRight_word _ shiftSmall]
  by_cases zero : shift = 0
  · simp [zero]
  · rw [testBit_shiftLeft_word _ (by omega)]
    simp [small]

end Shifts

theorem testBit_shiftLeft_pn (x : arith_uint256) (s j b : Nat) :
    ((x.shiftLeft s).pn.getD j 0).toNat.testBit b = true ↔ ∃ i < WIDTH, ShiftLeftSets x.pn (s / 32) (s % 32) i j b := by
  rw [shiftLeft, testBit_foldl_range length_shiftLeftPass _
    (fun _ sized => testBit_shiftLeftPass (sized.trans (List.length_replicate ..)))]
  simp

theorem testBit_shiftRight_pn (x : arith_uint256) (s j b : Nat) :
    ((x.shiftRight s).pn.getD j 0).toNat.testBit b = true ↔ ∃ i < WIDTH, ShiftRightSets x.pn (s / 32) (s % 32) i j b := by
  rw [shiftRight, testBit_foldl_range length_shiftRightPass _
    (fun _ sized => testBit_shiftRightPass (sized.trans (List.length_replicate ..)))]
  simp

theorem toNat_shiftLeft (x : arith_uint256) (s : Nat) : (x.shiftLeft s).toNat = (x.toNat <<< s) % 2 ^ 256 := by
  apply Nat.eq_of_testBit_eq
  intro p
  obtain ⟨j, b, small, rfl⟩ : ∃ j b, b < 32 ∧ p = 32 * j + b :=
    ⟨p / 32, p % 32, Nat.mod_lt _ (by decide), (Nat.div_add_mod p 32).symm⟩
  have whole : s = 32 * (s / 32) + s % 32 := (Nat.div_add_mod s 32).symm
  have shiftSmall : s % 32 < 32 := Nat.mod_lt _ (by decide)
  rw [toNat, testBit_value_at _ _ small, Nat.testBit_mod_two_pow, Nat.testBit_shiftLeft, toNat]
  apply Bool.eq_iff_iff.mpr
  simp only [testBit_shiftLeft_pn, shiftLeftSets_iff shiftSmall small, Bool.and_eq_true, decide_eq_true_eq,
    width_eq]
  constructor
  · rintro ⟨i, below, inRange, (⟨rfl, le, bit⟩ | ⟨nonzero, rfl, bit⟩)⟩
    · -- the low bits of word `i`, `k` words up
      have position : 32 * (i + s / 32) + b - s = 32 * i + (b - s % 32) := by omega
      refine ⟨by omega, by omega, ?_⟩
      rw [position, testBit_value_at _ _ (by omega)]
      exact bit
    · -- the high bits of word `i`, one word further up
      have fits : 32 - s % 32 + b < 32 := by
        by_contra spill
        rw [testBit_word_of_le _ (by omega)] at bit
        cases bit
      have position : 32 * (i + s / 32 + 1) + b - s = 32 * i + (32 - s % 32 + b) := by omega
      refine ⟨by omega, by omega, ?_⟩
      rw [position, testBit_value_at _ _ fits]
      exact bit
  · rintro ⟨inRange, atLeast, bit⟩
    rw [testBit_value] at bit
    have word : (32 * j + b - s) / 32 < 8 := by
      by_contra outside
      rw [getD_pn_of_le _ (by rw [width_eq]; omega), UInt32.toNat_zero, Nat.zero_testBit] at bit
      cases bit
    by_cases low : s % 32 ≤ b
    · have remainder : (32 * j + b - s) % 32 = b - s % 32 := by omega
      rw [remainder] at bit
      exact ⟨_, word, by omega, Or.inl ⟨by omega, low, bit⟩⟩
    · have remainder : (32 * j + b - s) % 32 = 32 - s % 32 + b := by omega
      rw [remainder] at bit
      exact ⟨_, word, by omega, Or.inr ⟨by omega, by omega, bit⟩⟩

theorem toNat_shiftRight (x : arith_uint256) (s : Nat) : (x.shiftRight s).toNat = x.toNat >>> s := by
  apply Nat.eq_of_testBit_eq
  intro p
  obtain ⟨j, b, small, rfl⟩ : ∃ j b, b < 32 ∧ p = 32 * j + b :=
    ⟨p / 32, p % 32, Nat.mod_lt _ (by decide), (Nat.div_add_mod p 32).symm⟩
  have whole : s = 32 * (s / 32) + s % 32 := (Nat.div_add_mod s 32).symm
  have shiftSmall : s % 32 < 32 := Nat.mod_lt _ (by decide)
  rw [toNat, testBit_value_at _ _ small, Nat.testBit_shiftRight, toNat]
  apply Bool.eq_iff_iff.mpr
  simp only [testBit_shiftRight_pn, shiftRightSets_iff shiftSmall small, width_eq]
  constructor
  · rintro ⟨i, below, inRange, (⟨le, rfl, bit⟩ | ⟨nonzero, le, rfl, high, bit⟩)⟩
    · -- bit `shift + b` of word `i`: it lies in word `i` or is none
      by_cases fits : s % 32 + b < 32
      · have position : s + (32 * (i - s / 32) + b) = 32 * i + (s % 32 + b) := by omega
        rw [position, testBit_value_at _ _ fits]
        exact bit
      · rw [testBit_word_of_le _ (by omega)] at bit
        cases bit
    · have position : s + (32 * (i - s / 32 - 1) + b) = 32 * i + (b - (32 - s % 32)) := by omega
      rw [position, testBit_value_at _ _ (by omega)]
      exact bit
  · intro bit
    rw [testBit_value] at bit
    have word : (s + (32 * j + b)) / 32 < 8 := by
      by_contra outside
      rw [getD_pn_of_le _ (by rw [width_eq]; omega), UInt32.toNat_zero, Nat.zero_testBit] at bit
      cases bit
    by_cases fits : s % 32 + b < 32
    · have remainder : (s + (32 * j + b)) % 32 = s % 32 + b := by omega
      rw [remainder] at bit
      exact ⟨_, word, by omega, Or.inl ⟨by omega, by omega, bit⟩⟩
    · have remainder : (s + (32 * j + b)) % 32 = b - (32 - s % 32) := by omega
      rw [remainder] at bit
      exact ⟨_, word, by omega, Or.inr ⟨by omega, by omega, by omega, by omega, bit⟩⟩

theorem toNat_ofUInt64 (b : UInt64) : (ofUInt64 b).toNat = b.toNat := by
  have whole := b.toNat_lt
  simp only [toNat, ofUInt64, value_cons, value_replicate_zero, UInt64.toNat_toUInt32, UInt64.toNat_shiftRight]
  simp only [UInt64.reduceToNat, Nat.reduceMod, Nat.shiftRight_eq_div_pow]
  omega

theorem toNat_GetLow64 (x : arith_uint256) : x.GetLow64.toNat = x.toNat % 2 ^ 64 := by
  obtain ⟨pn, sized⟩ := x
  match pn, sized with
  | w0 :: w1 :: rest, _ =>
      have low := w0.toNat_lt
      have high := w1.toNat_lt
      simp only [GetLow64, toNat, value_cons, List.getD_cons_zero, List.getD_cons_succ, UInt64.toNat_or,
        UInt64.toNat_shiftLeft, UInt32.toNat_toUInt64, UInt64.reduceToNat, Nat.reduceMod]
      rw [Nat.mod_eq_of_lt (by rw [Nat.shiftLeft_eq]; omega), Nat.or_comm,
        Wire.shiftLeft_or_eq_add low]
      omega

theorem bitsInWord_eq (w : UInt32) (nonzero : w ≠ 0) :
    ∀ nbits, nbits < 32 → w.toNat < 2 ^ (nbits + 1) → bitsInWord w nbits = w.toNat.size
  | 0, _, below => by
      have one : w.toNat = 1 := by
        have positive : w.toNat ≠ 0 := fun zero => nonzero (UInt32.toNat_inj.mp zero)
        omega
      rw [bitsInWord, one, Nat.size_one]
  | nbits + 1, small, below => by
      rw [bitsInWord]
      by_cases set : w.toNat.testBit (nbits + 1) = true
      · rw [if_pos ((and_one_shiftLeft_ne_zero_iff w small).mpr set)]
        symm
        apply size_eq_succ_of_testBit set
        intro i above
        exact Nat.testBit_eq_false_of_lt (lt_of_lt_of_le below (Nat.pow_le_pow_right (by decide) above))
      · rw [if_neg (fun tested => set ((and_one_shiftLeft_ne_zero_iff w small).mp tested))]
        apply bitsInWord_eq w nonzero nbits (by omega)
        apply Nat.lt_pow_two_of_testBit
        intro i atLeast
        by_cases top : i = nbits + 1
        · subst top
          simpa using set
        · exact Nat.testBit_eq_false_of_lt (lt_of_lt_of_le below (Nat.pow_le_pow_right (by decide) (by omega)))

theorem bitsLoop_eq (pn : List UInt32) :
    ∀ pos, (∀ q, pos ≤ q → pn.getD q 0 = 0) → bitsLoop pn pos = (value pn).size
  | 0, zero => by rw [bitsLoop, value_eq_zero_of_getD (fun q => zero q (Nat.zero_le q)), Nat.size_zero]
  | pos + 1, zero => by
      rw [bitsLoop]
      by_cases nonzero : pn.getD pos 0 ≠ 0
      · rw [if_pos nonzero, size_value_of_top nonzero (fun q above => zero q above),
          bitsInWord_eq _ nonzero 31 (by decide) (UInt32.toNat_lt _)]
      · rw [if_neg nonzero]
        apply bitsLoop_eq pn pos
        intro q atLeast
        by_cases same : q = pos
        · subst same
          simpa using nonzero
        · exact zero q (by omega)

theorem bits_eq_size (x : arith_uint256) : x.bits = x.toNat.size :=
  bitsLoop_eq x.pn WIDTH (fun _ outside => getD_pn_of_le x outside)

theorem compareFrom_eq (a b : List UInt32) (i : Nat) :
    compareFrom a b i =
      if value (a.take i) < value (b.take i) then -1 else if value (b.take i) < value (a.take i) then 1 else 0 := by
  induction i with
  | zero => simp [compareFrom]
  | succ i ih =>
      have lowA : value (a.take i) < 2 ^ (32 * i) :=
        lt_of_lt_of_le (value_lt _) (Nat.pow_le_pow_right (by decide) (by simp))
      have lowB : value (b.take i) < 2 ^ (32 * i) :=
        lt_of_lt_of_le (value_lt _) (Nat.pow_le_pow_right (by decide) (by simp))
      rw [compareFrom, value_take_succ, value_take_succ]
      simp only [add_mul_lt_add_mul_iff lowA lowB, add_mul_lt_add_mul_iff lowB lowA, ih, UInt32.lt_iff_toNat_lt,
        gt_iff_lt]
      rcases Nat.lt_trichotomy (a.getD i 0).toNat (b.getD i 0).toNat with below | same | above
      · rw [if_pos below, if_pos (Or.inl below)]
      · -- equal words: the lower words decide
        rw [if_neg (by omega), if_neg (by omega), same]
        simp only [lt_irrefl, false_or, true_and]
      · rw [if_neg (by omega), if_pos above, if_neg (by omega), if_pos (Or.inl above)]

theorem gt_iff (a b : arith_uint256) : a.gt b = true ↔ b.toNat < a.toNat := by
  have whole : ∀ x : arith_uint256, x.pn.take WIDTH = x.pn := fun x => List.take_of_length_le (le_of_eq x.length_pn)
  rw [gt, CompareTo, compareFrom_eq, whole, whole, ← toNat, ← toNat]
  split_ifs with below above <;> simp <;> omega

theorem EqualTo_zero_iff (x : arith_uint256) : x.EqualTo 0 = true ↔ x.toNat = 0 := by
  constructor
  · intro equal
    apply value_eq_zero_of_getD
    intro q
    simp only [EqualTo, Bool.and_eq_true, List.all_eq_true, List.mem_range'_1, beq_iff_eq] at equal
    obtain ⟨⟨high, one⟩, zero⟩ := equal
    rcases Nat.lt_or_ge q 2 with low | upper
    · interval_cases q
      · exact UInt32.toNat_inj.mp (by simpa using congrArg UInt64.toNat zero)
      · exact UInt32.toNat_inj.mp (by simpa using congrArg UInt64.toNat one)
    · by_cases inside : q < WIDTH
      · exact high q ⟨upper, by rw [width_eq] at inside ⊢; omega⟩
      · exact getD_pn_of_le x (by omega)
  · intro zero
    have words := getD_eq_zero_of_value_eq_zero zero
    simp only [EqualTo, words]
    decide

theorem value_map_ReadLE32 (n : Nat) : ∀ bytes : Bytes, bytes.length = 4 * n →
    value ((List.range n).map (fun x => ReadLE32 (bytes.drop (x * 4)))) = valueLE bytes := by
  induction n with
  | zero =>
      intro bytes sized
      have empty : bytes = [] := List.length_eq_zero_iff.mp (by simpa using sized)
      rw [empty]
      rfl
  | succ n ih =>
      intro bytes sized
      have word : (ReadLE32 bytes).toNat = valueLE (bytes.take 4) := by
        rw [ReadLE32, UInt32.toNat_ofNat_of_lt']
        exact lt_of_lt_of_le (valueLE_lt _)
          (le_trans (Nat.pow_le_pow_right (by decide) (List.length_take_le 4 bytes)) (by decide))
      have split : bytes = bytes.take 4 ++ bytes.drop 4 := (List.take_append_drop 4 bytes).symm
      rw [List.range_succ_eq_map, List.map_cons, List.map_map, value_cons, Nat.zero_mul, List.drop_zero, word]
      have shifted : (fun x => ReadLE32 (bytes.drop (x * 4))) ∘ Nat.succ =
          fun x => ReadLE32 ((bytes.drop 4).drop (x * 4)) := by
        funext x
        simp [List.drop_drop, Nat.succ_mul, Nat.add_comm]
      rw [shifted, ih _ (by simp; omega)]
      conv_rhs => rw [split, valueLE_append, List.length_take, Nat.min_eq_left (by omega)]
      rfl

theorem toNat_UintToArith256 (a : Uint256) : (UintToArith256 a).toNat = valueLE a.data :=
  value_map_ReadLE32 WIDTH a.data (by rw [a.size_data]; rfl)

end arith_uint256

end Elements
