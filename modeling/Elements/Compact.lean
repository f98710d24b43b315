import Elements.ArithUint256

/-! The compact form of a 256-bit target (`arith_uint256::SetCompact` and `GetCompact`) and the
proof-of-work check of a peg-in's parent chain header (`CheckParentProofOfWork` of
`pegins.cpp`).

A compact word holds an exponent `nSize` in its top byte, a sign bit, and a 23-bit mantissa; it
denotes the mantissa moved to `nSize` bytes. `GetCompact` picks the least exponent whose mantissa
leaves the sign bit clear and keeps the top bytes of the number, so reading a compact form back
clears the bytes below its mantissa, and nothing else. -/

namespace Elements

open Wire Words

namespace Compact

/-- The number the exponent `nSize` and the mantissa `m` denote. -/
def denote (nSize m : Nat) : Nat := if nSize ≤ 3 then m >>> (8 * (3 - nSize)) else m <<< (8 * (nSize - 3))

/-- `E` is the least exponent whose mantissa leaves the sign bit clear for `X`. -/
def IsExponent (X E : Nat) : Prop := X < 2 ^ (8 * E - 1) ∧ ∀ n < E, 2 ^ (8 * n - 1) ≤ X

/-- The mantissa of `X` at the exponent `E`. -/
def mantissa (X E : Nat) : Nat := if E ≤ 3 then X <<< (8 * (3 - E)) else X >>> (8 * (E - 3))

section Laws

variable {X E n : Nat}

theorem IsExponent.unique {E' : Nat} (first : IsExponent X E) (second : IsExponent X E') : E = E' := by
  rcases Nat.lt_trichotomy E E' with less | same | more
  · exact absurd (second.2 E less) (Nat.not_le.mpr first.1)
  · exact same
  · exact absurd (first.2 E' more) (Nat.not_le.mpr second.1)

theorem IsExponent.le_of_lt (exponent : IsExponent X E) (fits : X < 2 ^ (8 * n - 1)) : E ≤ n := by
  by_contra above
  exact absurd (exponent.2 n (by omega)) (Nat.not_le.mpr fits)

theorem mantissa_lt_iff : mantissa X E < 2 ^ 23 ↔ X < 2 ^ (8 * E - 1) := by
  unfold mantissa
  split_ifs with small
  · interval_cases E <;> simp only [Nat.shiftLeft_eq] <;> omega
  · have exponent : 8 * (E - 3) + 23 = 8 * E - 1 := by omega
    rw [shiftRight_lt_two_pow_iff, exponent]

theorem mantissa_lt_of_lt (fits : X < 2 ^ (8 * E)) : mantissa X E < 2 ^ 24 := by
  unfold mantissa
  split_ifs with small
  · have exponent : 8 * (3 - E) + 8 * E = 24 := by omega
    rw [← exponent]
    exact shiftLeft_lt_two_pow_iff.mpr fits
  · have exponent : 8 * (E - 3) + 24 = 8 * E := by omega
    rw [shiftRight_lt_two_pow_iff, exponent]
    exact fits

theorem mantissa_succ : mantissa X E >>> 8 = mantissa X (E + 1) := by
  unfold mantissa
  by_cases small : E + 1 ≤ 3
  · have shift : 8 * (3 - E) = 8 * (3 - (E + 1)) + 8 := by omega
    rw [if_pos (by omega), if_pos small, shift, Nat.shiftLeft_add, Nat.shiftLeft_shiftRight]
  · rw [if_neg small]
    by_cases three : E = 3
    · subst three
      rfl
    · rw [if_neg (by omega), ← Nat.shiftRight_add]
      congr 1
      omega

theorem denote_mantissa : denote E (mantissa X E) = X >>> (8 * (E - 3)) <<< (8 * (E - 3)) := by
  unfold denote mantissa
  split_ifs with small
  · rw [Nat.shiftLeft_shiftRight, Nat.sub_eq_zero_of_le small, Nat.mul_zero, Nat.shiftRight_zero,
      Nat.shiftLeft_zero]
  · rfl

end Laws

end Compact

namespace arith_uint256

/-- `SetCompact(nCompact, &fNegative, &fOverflow)`: the number and the two flags. -/
def SetCompact (nCompact : UInt32) : arith_uint256 × Bool × Bool :=
  let nSize := (nCompact >>> 24).toNat
  let nWord := nCompact &&& 0x007fffff
  -- a small exponent shifts the mantissa down, and the flags read the shifted mantissa
  let nWord := if nSize ≤ 3 then nWord >>> UInt32.ofNat (8 * (3 - nSize)) else nWord
  let x := if nSize ≤ 3 then ofUInt64 nWord.toUInt64 else (ofUInt64 nWord.toUInt64).shiftLeft (8 * (nSize - 3))
  let fNegative := nWord != 0 && nCompact &&& 0x00800000 != 0
  let fOverflow := nWord != 0 && (decide (nSize > 34) || nWord > 0xff && decide (nSize > 33) ||
    nWord > 0xffff && decide (nSize > 32))
  (x, fNegative, fOverflow)

/-- `GetCompact(fNegative)`, or `none` where one of its assertions fails. -/
def GetCompact (x : arith_uint256) (fNegative : Bool) : Option UInt32 :=
  let nSize := (x.bits + 7) / 8
  let nCompact : UInt32 :=
    if nSize ≤ 3 then (x.GetLow64 <<< UInt64.ofNat (8 * (3 - nSize))).toUInt32
    else (x.shiftRight (8 * (nSize - 3))).GetLow64.toUInt32
  -- the 0x00800000 bit is the sign: a mantissa that has it set moves down a byte
  let sign := nCompact &&& 0x00800000 != 0
  let nCompact := if sign then nCompact >>> 8 else nCompact
  let nSize := if sign then nSize + 1 else nSize
  if nCompact &&& ~~~0x007fffff = 0 ∧ nSize < 256 then
    let nCompact := nCompact ||| UInt32.ofNat nSize <<< 24
    some (nCompact ||| if fNegative && nCompact &&& 0x007fffff != 0 then 0x00800000 else 0)
  else none

section Fields

theorem and_sign_ne_zero_iff (v : UInt32) (small : v.toNat < 2 ^ 24) :
    v &&& 0x00800000 ≠ 0 ↔ 2 ^ 23 ≤ v.toNat := by
  have sign : (0x00800000 : UInt32) = 1 <<< UInt32.ofNat 23 := by decide
  rw [sign, and_one_shiftLeft_ne_zero_iff v (by decide)]
  constructor
  · exact Nat.ge_two_pow_of_testBit
  · intro atLeast
    exact Nat.testBit_of_two_pow_le_and_two_pow_add_one_gt atLeast small

theorem and_not_mantissa_eq_zero_iff (v : UInt32) : v &&& ~~~0x007fffff = 0 ↔ v.toNat < 2 ^ 23 := by
  have mask : (~~~(0x007fffff : UInt32)).toNat = (2 ^ 9 - 1) <<< 23 := by decide
  have bits : ∀ i, (v &&& ~~~0x007fffff).toNat.testBit i = (decide (23 ≤ i) && v.toNat.testBit i) := by
    intro i
    rw [UInt32.toNat_and, mask, Nat.testBit_and, Nat.testBit_shiftLeft, Nat.testBit_two_pow_sub_one]
    by_cases word : i < 32
    · by_cases high : 23 ≤ i
      · have inMask : i - 23 < 9 := by omega
        simp [high, inMask]
      · simp [high]
    · rw [testBit_word_of_le v (by omega)]
      simp
  rw [← UInt32.toNat_inj, UInt32.toNat_zero]
  constructor
  · intro zero
    apply Nat.lt_pow_two_of_testBit
    intro i atLeast
    have bit := bits i
    rw [zero, Nat.zero_testBit] at bit
    simpa [atLeast] using bit.symm
  · intro small
    apply Nat.eq_of_testBit_eq
    intro i
    rw [bits, Nat.zero_testBit]
    by_cases high : 23 ≤ i
    · rw [Nat.testBit_eq_false_of_lt (lt_of_lt_of_le small (Nat.pow_le_pow_right (by decide) high))]
      simp
    · simp [high]

theorem or_exponent (v : UInt32) {E : Nat} (small : v.toNat < 2 ^ 24) (exponent : E < 256) :
    v ||| UInt32.ofNat E <<< 24 = UInt32.ofNat (E * 2 ^ 24 + v.toNat) := by
  apply UInt32.toNat_inj.mp
  rw [UInt32.toNat_or, UInt32.toNat_shiftLeft, UInt32.toNat_ofNat', UInt32.toNat_ofNat',
    Nat.mod_eq_of_lt (by omega : E < 2 ^ 32)]
  simp only [UInt32.reduceToNat, Nat.reduceMod]
  rw [Nat.mod_eq_of_lt (by rw [Nat.shiftLeft_eq]; omega), Nat.or_comm, Wire.shiftLeft_or_eq_add small,
    Nat.mod_eq_of_lt (by omega)]

theorem fields_of_compact {E m : Nat} (exponent : E < 256) (small : m < 2 ^ 23) :
    (UInt32.ofNat (E * 2 ^ 24 + m) >>> 24).toNat = E ∧ (UInt32.ofNat (E * 2 ^ 24 + m) &&& 0x007fffff).toNat = m ∧
      UInt32.ofNat (E * 2 ^ 24 + m) &&& 0x00800000 = 0 := by
  have word : (UInt32.ofNat (E * 2 ^ 24 + m)).toNat = E * 2 ^ 24 + m := by
    rw [UInt32.toNat_ofNat', Nat.mod_eq_of_lt (by omega)]
  refine ⟨?_, ?_, ?_⟩
  · rw [UInt32.toNat_shiftRight, word]
    simp only [UInt32.reduceToNat, Nat.reduceMod]
    rw [Nat.shiftRight_eq_div_pow]
    omega
  · have mask : (0x007fffff : UInt32).toNat = 2 ^ 23 - 1 := rfl
    rw [UInt32.toNat_and, word, mask, Nat.and_two_pow_sub_one_eq_mod]
    omega
  · -- bit 23 of the word is bit 23 of the mantissa
    have sign : (0x00800000 : UInt32) = 1 <<< UInt32.ofNat 23 := by decide
    by_contra set
    rw [← ne_eq, sign, and_one_shiftLeft_ne_zero_iff _ (by decide : 23 < 32), word, Nat.mul_comm,
      Nat.testBit_two_pow_mul_add _ (by omega), if_pos (by decide),
      Nat.testBit_eq_false_of_lt small] at set
    exact Bool.false_ne_true set

end Fields

theorem mantissa_lt (nCompact : UInt32) : (nCompact &&& 0x007fffff).toNat < 2 ^ 23 := by
  have mask : (0x007fffff : UInt32).toNat = 2 ^ 23 - 1 := rfl
  rw [UInt32.toNat_and, mask, Nat.and_two_pow_sub_one_eq_mod]
  exact Nat.mod_lt _ (by decide)

theorem toNat_SetCompact (nCompact : UInt32) :
    (SetCompact nCompact).1.toNat =
      Compact.denote (nCompact >>> 24).toNat (nCompact &&& 0x007fffff).toNat % 2 ^ 256 := by
  have small := mantissa_lt nCompact
  unfold SetCompact Compact.denote
  dsimp only
  by_cases low : (nCompact >>> 24).toNat ≤ 3
  · -- the mantissa moves down within its word
    have shift : 8 * (3 - (nCompact >>> 24).toNat) < 32 := by omega
    simp only [if_pos low]
    rw [toNat_ofUInt64, UInt32.toNat_toUInt64, UInt32.toNat_shiftRight,
      UInt32.toNat_ofNat_of_lt' (lt_trans shift (by decide)), Nat.mod_eq_of_lt shift,
      Nat.mod_eq_of_lt (lt_of_le_of_lt (Nat.shiftRight_le _ _) (by omega))]
  · simp only [if_neg low]
    rw [toNat_shiftLeft, toNat_ofUInt64, UInt32.toNat_toUInt64]

theorem SetCompact_flags_of_fields {E m : Nat} (small : m < 2 ^ 23) (fits : E ≤ 32 ∨ (E = 33 ∧ m < 2 ^ 16)) :
    (SetCompact (UInt32.ofNat (E * 2 ^ 24 + m))).2 = (false, false) := by
  obtain ⟨exponent, mantissa, sign⟩ := fields_of_compact (E := E) (by omega) small
  generalize UInt32.ofNat (E * 2 ^ 24 + m) = c at exponent mantissa sign ⊢
  have notAbove : ¬ E > 34 ∧ ¬ E > 33 := by omega
  simp only [SetCompact, exponent, sign, bne_self_eq_false, Bool.and_false, Prod.mk.injEq, true_and,
    notAbove, decide_false, Bool.false_or]
  rcases fits with atMost | ⟨rfl, short⟩
  · have notAbove : ¬ E > 32 := by omega
    simp [notAbove]
  · have notWide : ¬ (0xffff : UInt32) < c &&& 0x007fffff := by
      rw [UInt32.lt_iff_toNat_lt, mantissa]
      simp only [UInt32.reduceToNat]
      omega
    simp [notWide]

theorem denote_lt_of_not_overflow (nCompact : UInt32) (noOverflow : (SetCompact nCompact).2.2 = false) :
    Compact.denote (nCompact >>> 24).toNat (nCompact &&& 0x007fffff).toNat < 2 ^ 256 := by
  have small := mantissa_lt nCompact
  set E := (nCompact >>> 24).toNat with exponent
  set m := (nCompact &&& 0x007fffff).toNat with mantissa
  unfold Compact.denote
  split_ifs with low
  · exact lt_of_le_of_lt (Nat.shiftRight_le _ _) (lt_trans small (by decide))
  · -- the flag tests the unshifted mantissa against the bytes left above it
    have flag : m = 0 ∨ (E ≤ 34 ∧ (m ≤ 0xff ∨ E ≤ 33) ∧ (m ≤ 0xffff ∨ E ≤ 32)) := by
      simp only [SetCompact, ← exponent, if_neg low, Bool.and_eq_false_iff, bne_eq_false_iff_eq,
        Bool.or_eq_false_iff, decide_eq_false_iff_not, Bool.and_eq_false_iff] at noOverflow
      rw [← UInt32.toNat_inj, UInt32.toNat_zero, ← mantissa] at noOverflow
      simp only [gt_iff_lt, UInt32.lt_iff_toNat_lt, ← mantissa, UInt32.reduceToNat] at noOverflow
      omega
    rcases flag with zero | ⟨atMost, byte, twoBytes⟩
    · rw [zero, Nat.zero_shiftLeft]
      positivity
    · have wide : m < 2 ^ (256 - 8 * (E - 3)) := by
        rcases Nat.lt_or_ge E 33 with shorter | longer
        · exact lt_of_lt_of_le small (Nat.pow_le_pow_right (by decide) (by omega))
        · rcases Nat.lt_or_ge E 34 with thirtyThree | thirtyFour
          · have room : 256 - 8 * (E - 3) = 16 := by omega
            rw [room]
            omega
          · have room : 256 - 8 * (E - 3) = 8 := by omega
            rw [room]
            omega
      have exponents : 8 * (E - 3) + (256 - 8 * (E - 3)) = 256 := by omega
      rw [← exponents]
      exact shiftLeft_lt_two_pow_iff.mpr wide

theorem toNat_lt (x : arith_uint256) : x.toNat < 2 ^ 256 := by
  have bound := value_lt x.pn
  rwa [x.length_pn] at bound

theorem toNat_first_mantissa (x : arith_uint256) {N : Nat} (fits : x.toNat < 2 ^ (8 * N)) :
    (if N ≤ 3 then (x.GetLow64 <<< UInt64.ofNat (8 * (3 - N))).toUInt32
      else (x.shiftRight (8 * (N - 3))).GetLow64.toUInt32).toNat = Compact.mantissa x.toNat N := by
  have three := Compact.mantissa_lt_of_lt fits
  unfold Compact.mantissa at three ⊢
  split_ifs at three ⊢ with low
  · have word : x.toNat < 2 ^ 64 := lt_of_lt_of_le fits (Nat.pow_le_pow_right (by decide) (by omega))
    have shift : 8 * (3 - N) < 64 := by omega
    rw [UInt64.toNat_toUInt32, UInt64.toNat_shiftLeft, toNat_GetLow64, Nat.mod_eq_of_lt word,
      UInt64.toNat_ofNat_of_lt' (lt_trans shift (by decide)), Nat.mod_eq_of_lt shift,
      Nat.mod_eq_of_lt (lt_trans three (by decide)), Nat.mod_eq_of_lt (lt_trans three (by decide))]
  · rw [UInt64.toNat_toUInt32, toNat_GetLow64, toNat_shiftRight, Nat.mod_eq_of_lt (lt_trans three (by decide)),
      Nat.mod_eq_of_lt (lt_trans three (by decide))]

theorem GetCompact_eq (x : arith_uint256) :
    ∃ E, Compact.IsExponent x.toNat E ∧ E ≤ 33 ∧ Compact.mantissa x.toNat E < 2 ^ 23 ∧
      (E = 33 → Compact.mantissa x.toNat E < 2 ^ 16) ∧
      x.GetCompact false = some (UInt32.ofNat (E * 2 ^ 24 + Compact.mantissa x.toNat E)) := by
  set X := x.toNat with number
  set N := (X.size + 7) / 8 with bytes
  have sizeBound : X.size ≤ 256 := Nat.size_le.mpr x.toNat_lt
  have fits : X < 2 ^ (8 * N) := lt_of_lt_of_le (Nat.lt_size_self X) (Nat.pow_le_pow_right (by decide) (by omega))
  have reached : ∀ n < N, 2 ^ (8 * n - 1) ≤ X := by
    intro n below
    have top : 2 ^ (X.size - 1) ≤ X := Nat.lt_size.mp (by omega)
    exact le_trans (Nat.pow_le_pow_right (by decide) (by omega)) top
  have three := Compact.mantissa_lt_of_lt fits
  unfold GetCompact
  extract_lets nSize nCompact sign nCompact' nSize' assembled
  have sized : nSize = N := by
    simp only [nSize]
    rw [bits_eq_size]
  have first : nCompact.toNat = Compact.mantissa X N := by
    simp only [nCompact, sized]
    exact toNat_first_mantissa x fits
  have signed : sign = decide (2 ^ 23 ≤ Compact.mantissa X N) := by
    simp only [sign]
    rw [← first]
    apply Bool.eq_iff_iff.mpr
    rw [bne_iff_ne, decide_eq_true_iff]
    exact and_sign_ne_zero_iff _ (by rw [first]; exact three)
  -- the exponent and mantissa written, with what the claim needs of them
  obtain ⟨E, exponent, atMost, small, short, written, shifted⟩ :
      ∃ E, Compact.IsExponent X E ∧ E ≤ 33 ∧ Compact.mantissa X E < 2 ^ 23 ∧
        (E = 33 → Compact.mantissa X E < 2 ^ 16) ∧ nSize' = E ∧ nCompact'.toNat = Compact.mantissa X E := by
    by_cases high : 2 ^ 23 ≤ Compact.mantissa X N
    · -- the sign bit is set: one more byte of exponent
      have moved : Compact.mantissa X (N + 1) < 2 ^ 16 := by
        rw [← Compact.mantissa_succ, Nat.shiftRight_eq_div_pow]
        omega
      refine ⟨N + 1, ⟨?_, ?_⟩, by omega, by omega, fun _ => moved, ?_, ?_⟩
      · exact lt_of_lt_of_le fits (Nat.pow_le_pow_right (by decide) (by omega))
      · intro n below
        rcases Nat.lt_or_ge n N with earlier | last
        · exact reached n earlier
        · obtain rfl : n = N := by omega
          exact Nat.not_lt.mp (fun fits => Nat.not_le.mpr (Compact.mantissa_lt_iff.mpr fits) high)
      · simp only [nSize', signed, decide_eq_true high, if_true, sized]
      · simp only [nCompact', signed, decide_eq_true high, if_true]
        rw [UInt32.toNat_shiftRight, first]
        simp only [UInt32.reduceToNat, Nat.reduceMod]
        exact Compact.mantissa_succ
    · -- the sign bit is clear: the exponent is the number's length in bytes
      have clear : Compact.mantissa X N < 2 ^ 23 := Nat.not_le.mp high
      have atMost : N ≤ 32 := by omega
      refine ⟨N, ⟨Compact.mantissa_lt_iff.mp clear, reached⟩, by omega, clear, fun last => by omega, ?_, ?_⟩
      · simp only [nSize', signed, decide_eq_false high, Bool.false_eq_true, if_false, sized]
      · simp only [nCompact', signed, decide_eq_false high, Bool.false_eq_true, if_false]
        exact first
  refine ⟨E, exponent, atMost, small, short, ?_⟩
  have asserted : nCompact' &&& ~~~0x007fffff = 0 ∧ nSize' < 256 :=
    ⟨(and_not_mantissa_eq_zero_iff _).mpr (by rw [shifted]; exact small), by omega⟩
  rw [if_pos asserted, Bool.false_and, if_neg Bool.false_ne_true, UInt32.or_zero]
  simp only [assembled, written]
  rw [or_exponent _ (by rw [shifted]; omega) (by omega), shifted]

theorem ext_toNat {x y : arith_uint256} (same : x.toNat = y.toNat) : x = y := by
  obtain ⟨pn, sized⟩ := x
  obtain ⟨pn', sized'⟩ := y
  have words : pn = pn' := eq_of_value_eq (by rw [sized, sized']) same
  subst words
  rfl

theorem toNat_SetCompact_fields {X E : Nat} (fits : X < 2 ^ 256) (atMost : E ≤ 33)
    (small : Compact.mantissa X E < 2 ^ 23) :
    (SetCompact (UInt32.ofNat (E * 2 ^ 24 + Compact.mantissa X E))).1.toNat = X >>> (8 * (E - 3)) <<< (8 * (E - 3)) := by
  obtain ⟨exponent, mantissa, -⟩ := fields_of_compact (E := E) (by omega) small
  rw [toNat_SetCompact, exponent, mantissa, Compact.denote_mantissa,
    Nat.mod_eq_of_lt (lt_of_le_of_lt shiftRight_shiftLeft_le fits)]

theorem IsExponent_round {X E : Nat} (exponent : Compact.IsExponent X E) :
    Compact.IsExponent (X >>> (8 * (E - 3)) <<< (8 * (E - 3))) E ∧
      Compact.mantissa (X >>> (8 * (E - 3)) <<< (8 * (E - 3))) E = Compact.mantissa X E := by
  have below : X >>> (8 * (E - 3)) <<< (8 * (E - 3)) ≤ X := shiftRight_shiftLeft_le
  refine ⟨⟨lt_of_le_of_lt below exponent.1, ?_⟩, ?_⟩
  · -- the top byte below the exponent survives the rounding, and every lower power with it
    intro n lower
    have top : 2 ^ (8 * (E - 1) - 1) ≤ X >>> (8 * (E - 3)) <<< (8 * (E - 3)) :=
      two_pow_le_shiftRight_shiftLeft (by omega) (exponent.2 (E - 1) (by omega))
    exact le_trans (Nat.pow_le_pow_right (by decide) (by omega)) top
  · unfold Compact.mantissa
    split_ifs with low
    · rw [Nat.sub_eq_zero_of_le low, Nat.mul_zero, Nat.shiftRight_zero, Nat.shiftLeft_zero]
    · rw [Nat.shiftLeft_shiftRight]

theorem SetCompact_GetCompact (x : arith_uint256) :
    ∃ c, x.GetCompact false = some c ∧ (SetCompact c).2 = (false, false) ∧
      ∃ d, x.toNat >>> (8 * d) < 2 ^ 23 ∧ (∀ e < d, 2 ^ 23 ≤ x.toNat >>> (8 * e)) ∧
        (SetCompact c).1.toNat = x.toNat >>> (8 * d) <<< (8 * d) := by
  obtain ⟨E, exponent, atMost, small, short, get⟩ := GetCompact_eq x
  refine ⟨_, get, SetCompact_flags_of_fields small (by omega), E - 3, ?_, ?_,
    toNat_SetCompact_fields x.toNat_lt atMost small⟩
  · rw [shiftRight_lt_two_pow_iff]
    exact lt_of_lt_of_le exponent.1 (Nat.pow_le_pow_right (by decide) (by omega))
  · intro e lower
    rw [two_pow_le_shiftRight_iff]
    have reached := exponent.2 (e + 3) (by omega)
    have top : 8 * (e + 3) - 1 = 8 * e + 23 := by omega
    rwa [top] at reached

theorem GetCompact_SetCompact_GetCompact (x : arith_uint256) :
    (x.GetCompact false).bind (fun c => (SetCompact c).1.GetCompact false) = x.GetCompact false := by
  obtain ⟨E, exponent, atMost, small, -, get⟩ := GetCompact_eq x
  rw [get, Option.bind_some]
  obtain ⟨E', exponent', -, -, -, get'⟩ := GetCompact_eq (SetCompact (UInt32.ofNat (E * 2 ^ 24 + Compact.mantissa x.toNat E))).1
  rw [toNat_SetCompact_fields x.toNat_lt atMost small] at exponent' get'
  obtain ⟨rounded, sameMantissa⟩ := IsExponent_round exponent
  rw [← rounded.unique exponent', sameMantissa] at get'
  exact get'

theorem SetCompact_GetCompact_SetCompact (nCompact : UInt32) (valid : (SetCompact nCompact).2 = (false, false)) :
    ∃ c, (SetCompact nCompact).1.GetCompact false = some c ∧ (SetCompact c).1 = (SetCompact nCompact).1 := by
  set y := (SetCompact nCompact).1 with number
  obtain ⟨E, exponent, atMost, small, -, get⟩ := GetCompact_eq y
  refine ⟨_, get, ext_toNat ?_⟩
  rw [toNat_SetCompact_fields y.toNat_lt atMost small]
  -- the number is a mantissa below 2 ^ 23 moved up whole bytes, so its exponent's rounding is exact
  have exact : y.toNat = Compact.denote (nCompact >>> 24).toNat (nCompact &&& 0x007fffff).toNat := by
    rw [number, toNat_SetCompact, Nat.mod_eq_of_lt (denote_lt_of_not_overflow nCompact (by rw [valid]))]
  have mantissa := mantissa_lt nCompact
  by_cases low : E ≤ 3
  · rw [Nat.sub_eq_zero_of_le low, Nat.mul_zero, Nat.shiftRight_zero, Nat.shiftLeft_zero]
  · apply shiftRight_shiftLeft_of_dvd
    unfold Compact.denote at exact
    split_ifs at exact with lowWord
    · -- a small exponent leaves a number below 2 ^ 23, whose exponent is at most 3
      have fits : y.toNat < 2 ^ (8 * 3 - 1) := by
        rw [exact]
        exact lt_of_le_of_lt (Nat.shiftRight_le _ _) mantissa
      exact absurd (exponent.le_of_lt fits) low
    · have top : 8 * (nCompact >>> 24).toNat - 1 = 8 * ((nCompact >>> 24).toNat - 3) + 23 := by omega
      have fits : y.toNat < 2 ^ (8 * (nCompact >>> 24).toNat - 1) := by
        rw [exact, top]
        exact shiftLeft_lt_two_pow_iff.mpr mantissa
      have shorter := exponent.le_of_lt fits
      rw [exact, Nat.shiftLeft_eq]
      exact Dvd.dvd.mul_left (Nat.pow_dvd_pow 2 (by omega)) _

end arith_uint256

/-- `CheckParentProofOfWork(hash, nBits, params)`: the target the bits denote must be a positive
number within the parent chain's limit `params.parentChainPowLimit`, and the hash at most it. -/
def CheckParentProofOfWork (hash : Uint256) (nBits : UInt32) (parentChainPowLimit : Uint256) : Bool :=
  let (bnTarget, fNegative, fOverflow) := arith_uint256.SetCompact nBits
  if fNegative || bnTarget.EqualTo 0 || fOverflow || bnTarget.gt (UintToArith256 parentChainPowLimit) then false
  else if (UintToArith256 hash).gt bnTarget then false
  else true

theorem CheckParentProofOfWork_iff (hash : Uint256) (nBits : UInt32) (parentChainPowLimit : Uint256) :
    CheckParentProofOfWork hash nBits parentChainPowLimit = true ↔
      (arith_uint256.SetCompact nBits).2 = (false, false) ∧
        0 < Compact.denote (nBits >>> 24).toNat (nBits &&& 0x007fffff).toNat ∧
        Compact.denote (nBits >>> 24).toNat (nBits &&& 0x007fffff).toNat ≤ valueLE parentChainPowLimit.data ∧
        valueLE hash.data ≤ Compact.denote (nBits >>> 24).toNat (nBits &&& 0x007fffff).toNat := by
  have value := arith_uint256.toNat_SetCompact nBits
  obtain ⟨⟨bnTarget, fNegative, fOverflow⟩, flags⟩ : ∃ result, arith_uint256.SetCompact nBits = result := ⟨_, rfl⟩
  unfold CheckParentProofOfWork
  rw [flags] at value ⊢
  dsimp only at value ⊢
  cases fOverflow with
  | true => simp
  | false =>
      -- without an overflow the 256-bit number is the denoted one
      have exact := arith_uint256.denote_lt_of_not_overflow nBits (by rw [flags])
      rw [Nat.mod_eq_of_lt exact] at value
      simp only [Bool.or_false, Prod.mk.injEq, and_true]
      split_ifs with rejected accepted
      · simp only [Bool.or_eq_true, arith_uint256.EqualTo_zero_iff, arith_uint256.gt_iff,
          arith_uint256.toNat_UintToArith256, value] at rejected
        simp only [false_iff, not_and, not_le]
        intro notNegative positive withinLimit
        rcases rejected with (negative | zero) | above
        · exact absurd negative (by rw [notNegative]; decide)
        · omega
        · omega
      · simp only [arith_uint256.gt_iff, arith_uint256.toNat_UintToArith256, value] at accepted
        simp only [false_iff, not_and, not_le]
        intro _ _ _
        exact accepted
      · simp only [Bool.or_eq_true, arith_uint256.EqualTo_zero_iff, arith_uint256.gt_iff,
          arith_uint256.toNat_UintToArith256, value, not_or, not_lt] at rejected accepted
        simp only [true_iff]
        obtain ⟨⟨notNegative, nonzero⟩, withinLimit⟩ := rejected
        exact ⟨by simpa using notNegative, by omega, withinLimit, accepted⟩

/-- The compact form is a faithful rounding: reading back the compact form of any number clears
exactly the bytes below its 23-bit mantissa and raises no flag, the compact form of that is the
same word, a valid compact word reads back to itself, and the parent chain check compares the hash
against exactly the number the bits denote. -/
theorem compact_roundTrip :
    (∀ x : arith_uint256, ∃ c, x.GetCompact false = some c ∧ (arith_uint256.SetCompact c).2 = (false, false) ∧
      ∃ d, x.toNat >>> (8 * d) < 2 ^ 23 ∧ (∀ e < d, 2 ^ 23 ≤ x.toNat >>> (8 * e)) ∧
        (arith_uint256.SetCompact c).1.toNat = x.toNat >>> (8 * d) <<< (8 * d)) ∧
    (∀ x : arith_uint256,
      (x.GetCompact false).bind (fun c => (arith_uint256.SetCompact c).1.GetCompact false) = x.GetCompact false) ∧
    (∀ nCompact : UInt32, (arith_uint256.SetCompact nCompact).2 = (false, false) →
      ∃ c, (arith_uint256.SetCompact nCompact).1.GetCompact false = some c ∧
        (arith_uint256.SetCompact c).1 = (arith_uint256.SetCompact nCompact).1) ∧
    (∀ (hash : Uint256) (nBits : UInt32) (parentChainPowLimit : Uint256),
      CheckParentProofOfWork hash nBits parentChainPowLimit = true ↔
        (arith_uint256.SetCompact nBits).2 = (false, false) ∧
          0 < Compact.denote (nBits >>> 24).toNat (nBits &&& 0x007fffff).toNat ∧
          Compact.denote (nBits >>> 24).toNat (nBits &&& 0x007fffff).toNat ≤ valueLE parentChainPowLimit.data ∧
          valueLE hash.data ≤ Compact.denote (nBits >>> 24).toNat (nBits &&& 0x007fffff).toNat) :=
  ⟨arith_uint256.SetCompact_GetCompact, arith_uint256.GetCompact_SetCompact_GetCompact,
    arith_uint256.SetCompact_GetCompact_SetCompact, CheckParentProofOfWork_iff⟩

end Elements
