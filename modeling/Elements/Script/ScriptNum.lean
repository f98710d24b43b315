import Elements.Machine.CInt
import Elements.Wire.Digits
import Elements.Wire.Bits

/-! `script/script.h`: `CScriptNum`, the numbers script opcodes read from and
write to the stack. A number is written as its magnitude in little-endian bytes
with the sign in the top bit of the last byte, and an extra byte when the
magnitude takes that bit. `serialize` writes the shortest such encoding; the
constructor rejects every other one when minimal encoding is required, and reads
an accepted one back to the number it was written from. -/

namespace Elements

open Wire

namespace CScriptNum

def nDefaultMaxNumSize : Nat := 4

/-- `set_vch`: each byte OR-ed into an `int64_t` at its position, then the
top bit of the last byte taken off as the sign. The shift
`static_cast<int64_t>(vch[i]) << 8*i` is undefined from the ninth byte on. -/
def set_vch (vch : Bytes) : Option Int :=
  if vch.isEmpty then some 0
  else if 8 < vch.length then none
  else
    let result := vch.zipIdx.foldl (fun result entry => result ||| entry.1.toNat <<< (8 * entry.2)) 0
    if vch.getLastD 0 &&& 0x80 ≠ 0 then
      -- result & ~(0x80ULL << (8 * (vch.size() - 1))), in uint64_t
      CInt.neg 64 (CInt.ofUnsigned 64 (result &&& (2 ^ 64 - 1 - (0x80 <<< (8 * (vch.length - 1))))))
    else some (CInt.ofUnsigned 64 result)

/-- `serialize`: the magnitude's bytes, least significant first; then the sign
is put into the top bit of the last byte, or into a byte of its own when the
magnitude uses that bit. -/
def serialize (value : Int) : Bytes :=
  if value = 0 then []
  else
    let neg := decide (value < 0)
    -- ~static_cast<uint64_t>(value) + 1 for a negative value, in uint64_t
    let absvalue :=
      if neg then (2 ^ 64 - 1 - CInt.toUnsigned 64 value + 1) % 2 ^ 64 else CInt.toUnsigned 64 value
    let result := bytesLE absvalue
    if result.getLastD 0 &&& 0x80 ≠ 0 then result ++ [if neg then 0x80 else 0]
    else if neg then result.dropLast ++ [result.getLastD 0 ||| 0x80]
    else result

/-- The test of the constructor that throws "non-minimally encoded script
number": the last byte, sign bit aside, is zero, and no byte before it needs
that bit. -/
def NonMinimal (vch : Bytes) : Prop :=
  vch ≠ [] ∧ vch.getLastD 0 &&& 0x7f = 0 ∧
    (vch.length ≤ 1 ∨ vch.getD (vch.length - 2) 0 &&& 0x80 = 0)

instance (vch : Bytes) : Decidable (NonMinimal vch) := inferInstanceAs (Decidable (_ ∧ _))

/-- `CScriptNum(vch, fRequireMinimal, nMaxNumSize)`: the number, or the
message of the `scriptnum_error` it throws; `none` where `set_vch` is undefined. -/
def ofVch (vch : Bytes) (fRequireMinimal : Bool) (nMaxNumSize : Nat) : Option (Except String Int) :=
  if nMaxNumSize < vch.length then some (.error "script number overflow")
  else if fRequireMinimal ∧ NonMinimal vch then some (.error "non-minimally encoded script number")
  else (set_vch vch).map .ok

/-- `getint`: the value clamped to the range of an `int`. -/
def getint (m_value : Int) : Int :=
  if m_value > CInt.max 32 then CInt.max 32
  else if m_value < CInt.min 32 then CInt.min 32
  else m_value

def getvch (m_value : Int) : Bytes := serialize m_value

theorem and_0x80_eq_zero_iff (b : UInt8) : b &&& 0x80 = 0 ↔ b.toNat < 128 := by
  rw [← UInt8.toNat_inj, UInt8.toNat_and]
  show b.toNat &&& 2 ^ 7 = 0 ↔ _
  rw [Nat.and_two_pow]
  by_cases small : b.toNat < 128
  · simp [Nat.testBit_lt_two_pow (show b.toNat < 2 ^ 7 from small), small]
  · have : b.toNat.testBit 7 = true :=
      Nat.testBit_of_two_pow_le_and_two_pow_add_one_gt (by omega) (by have := b.toNat_lt; omega)
    simp [this, small]

theorem toNat_and_0x7f (b : UInt8) : (b &&& 0x7f).toNat = b.toNat % 128 := by
  rw [UInt8.toNat_and]
  exact Nat.and_two_pow_sub_one_eq_mod b.toNat 7

theorem and_0x7f_eq_zero_iff (b : UInt8) : b &&& 0x7f = 0 ↔ b.toNat % 128 = 0 := by
  rw [← UInt8.toNat_inj, toNat_and_0x7f]
  rfl

theorem toNat_or_0x80 {b : UInt8} (small : b.toNat < 128) : (b ||| 0x80).toNat = b.toNat + 128 := by
  rw [UInt8.toNat_or]
  exact Nat.or_two_pow_eq_add_of_lt (n := 7) small

theorem set_vch_concat (init : Bytes) (last : UInt8) (short : init.length < 8) :
    set_vch (init ++ [last]) =
      some (if last.toNat < 128 then ((valueLE init + 256 ^ init.length * last.toNat : Nat) : Int)
        else -((valueLE init + 256 ^ init.length * (last.toNat % 128) : Nat) : Int)) := by
  have result : (init ++ [last]).zipIdx.foldl
      (fun result entry => result ||| entry.1.toNat <<< (8 * entry.2)) 0 =
        valueLE init + 256 ^ init.length * last.toNat := by
    rw [foldl_or_shiftLeft _ 0 0 (by simp), valueLE_concat]
    simp
  have lower := valueLE_lt init
  have digit := last.toNat_lt
  have place : 2 ^ (8 * init.length) = 256 ^ init.length := by rw [pow_mul]; rfl
  have room : 256 ^ init.length * 256 ≤ 2 ^ 64 := by
    rw [← pow_succ, show (2 : Nat) ^ 64 = 256 ^ 8 by rfl]
    exact Nat.pow_le_pow_right (by decide) short
  have nonempty : (init ++ [last]).isEmpty = false := by simp
  simp only [set_vch, nonempty, Bool.false_eq_true, ↓reduceIte, List.length_append, List.length_singleton,
    show ¬(8 < init.length + 1) by omega, result, List.getLastD_concat, and_0x80_eq_zero_iff, ne_eq,
    Nat.add_sub_cancel]
  by_cases small : last.toNat < 128
  · have fits : valueLE init + 256 ^ init.length * last.toNat < 2 ^ (64 - 1) := by
      have : 256 ^ init.length * last.toNat ≤ 256 ^ init.length * 127 := Nat.mul_le_mul_left _ (by omega)
      omega
    simp only [small, not_true_eq_false, ↓reduceIte, CInt.ofUnsigned, fits]
  · -- the mask clears bit 8 * init.length + 7, the top bit of the last byte
    have top : (0x80 : Nat) <<< (8 * init.length) = 2 ^ (8 * init.length + 7) := by
      rw [Nat.shiftLeft_eq, pow_add]
      ring
    have below : valueLE init + 256 ^ init.length * last.toNat < 2 ^ (8 * init.length + 7 + 1) := by
      rw [show 8 * init.length + 7 + 1 = 8 * (init.length + 1) by ring, pow_mul, pow_succ]
      have : 256 ^ init.length * last.toNat ≤ 256 ^ init.length * 255 := Nat.mul_le_mul_left _ (by omega)
      norm_num
      omega
    have cleared : (valueLE init + 256 ^ init.length * last.toNat) % 2 ^ (8 * init.length + 7) =
        valueLE init + 256 ^ init.length * (last.toNat % 128) := by
      have split : valueLE init + 256 ^ init.length * last.toNat =
          (valueLE init + 256 ^ init.length * (last.toNat % 128)) + 2 ^ (8 * init.length + 7) := by
        rw [pow_add, place]
        have : last.toNat = last.toNat % 128 + 128 := by omega
        conv_lhs => rw [this]
        ring
      have bound : 256 ^ init.length * (last.toNat % 128) ≤ 256 ^ init.length * 127 :=
        Nat.mul_le_mul_left _ (by omega)
      rw [split, Nat.add_mod_right, Nat.mod_eq_of_lt]
      rw [pow_add, place]
      omega
    have magnitude : valueLE init + 256 ^ init.length * (last.toNat % 128) < 2 ^ (64 - 1) := by
      have : 256 ^ init.length * (last.toNat % 128) ≤ 256 ^ init.length * 127 :=
        Nat.mul_le_mul_left _ (by omega)
      omega
    simp only [small, ↓reduceIte, top, and_clear_top_bit below (by omega : 8 * init.length + 7 < 64),
      cleared, not_false_eq_true, CInt.ofUnsigned_of_lt magnitude, CInt.neg]
    rw [CInt.checked_of_inRange]
    unfold CInt.InRange
    omega

@[simp] theorem set_vch_nil : set_vch [] = some 0 := rfl

theorem absvalue_eq {value : Int} (fits : CInt.InRange 64 value) :
    (if value < 0 then (2 ^ 64 - 1 - CInt.toUnsigned 64 value + 1) % 2 ^ 64
      else CInt.toUnsigned 64 value) = value.natAbs := by
  unfold CInt.InRange at fits
  unfold CInt.toUnsigned
  split
  · have : value % 2 ^ 64 = value + 2 ^ 64 := by
      rw [← Int.add_emod_right, Int.emod_eq_of_lt (by omega) (by omega)]
    rw [this]
    omega
  · rw [Int.emod_eq_of_lt (by omega) (by omega)]
    omega

theorem serialize_concat {value : Int} {init : Bytes} {last : UInt8} (fits : CInt.InRange 64 value)
    (nonzero : value ≠ 0) (magnitude : bytesLE value.natAbs = init ++ [last]) :
    serialize value =
      if last.toNat < 128 then (if value < 0 then init ++ [last ||| 0x80] else init ++ [last])
      else init ++ [last, if value < 0 then 0x80 else 0] := by
  have absvalue := absvalue_eq fits
  unfold serialize
  simp only [nonzero, ↓reduceIte, decide_eq_true_eq, absvalue, magnitude, List.getLastD_concat,
    List.dropLast_concat, ne_eq, and_0x80_eq_zero_iff]
  by_cases small : last.toNat < 128 <;> simp [small]

theorem nonMinimal_concat_of_ne {init : Bytes} {last : UInt8} (signBitAside : last.toNat % 128 ≠ 0) :
    ¬NonMinimal (init ++ [last]) := by
  rintro ⟨-, lastZero, -⟩
  rw [List.getLastD_concat, and_0x7f_eq_zero_iff] at lastZero
  exact signBitAside lastZero

theorem nonMinimal_singleton (last : UInt8) : NonMinimal [last] ↔ last.toNat % 128 = 0 := by
  simp [NonMinimal, and_0x7f_eq_zero_iff]

theorem nonMinimal_concat_pair (init : Bytes) (prev last : UInt8) :
    NonMinimal (init ++ [prev, last]) ↔ last.toNat % 128 = 0 ∧ prev.toNat < 128 := by
  simp [NonMinimal, and_0x7f_eq_zero_iff, and_0x80_eq_zero_iff]

theorem ofVch_of_not_nonMinimal {vch : Bytes} {fRequireMinimal : Bool} {nMaxNumSize : Nat}
    (fits : vch.length ≤ nMaxNumSize) (minimal : ¬NonMinimal vch) :
    ofVch vch fRequireMinimal nMaxNumSize = (set_vch vch).map .ok := by
  rw [ofVch, if_neg (Nat.not_lt.mpr fits), if_neg (fun test => minimal test.2)]

theorem ofVch_read {vch : Bytes} {fRequireMinimal : Bool} {nMaxNumSize : Nat} {value : Int}
    (decoded : ofVch vch fRequireMinimal nMaxNumSize = some (.ok value)) :
    vch.length ≤ nMaxNumSize ∧ set_vch vch = some value := by
  unfold ofVch at decoded
  split at decoded
  · cases decoded
  · rename_i long
    split at decoded
    · cases decoded
    · refine ⟨Nat.le_of_not_lt long, ?_⟩
      cases read : set_vch vch <;> simp_all

theorem ofVch_eq_ok {vch : Bytes} {nMaxNumSize : Nat} {value : Int}
    (decoded : ofVch vch true nMaxNumSize = some (.ok value)) :
    vch.length ≤ nMaxNumSize ∧ ¬NonMinimal vch ∧ set_vch vch = some value := by
  unfold ofVch at decoded
  split at decoded
  · cases decoded
  · rename_i long
    split at decoded
    · cases decoded
    · rename_i test
      refine ⟨Nat.le_of_not_lt long, fun nonMinimal => test ⟨rfl, nonMinimal⟩, ?_⟩
      cases read : set_vch vch <;> simp_all

theorem serialize_spec {value : Int} (fits : CInt.InRange 64 value) (notMin : value ≠ CInt.min 64) :
    (serialize value).length ≤ 8 ∧ ¬NonMinimal (serialize value) ∧
      set_vch (serialize value) = some value := by
  by_cases zero : value = 0
  · subst zero
    simp [serialize, NonMinimal]
  obtain ⟨init, last, magnitude, nonzeroLast, valued⟩ := bytesLE_eq_concat (Int.natAbs_ne_zero.mpr zero)
  have small : value.natAbs < 2 ^ 63 := by
    unfold CInt.InRange CInt.min at *
    omega
  have lastPos : 0 < last.toNat := by
    have : last.toNat ≠ 0 := fun h => nonzeroLast (UInt8.toNat_inj.mp h)
    omega
  have short : init.length < 8 := by
    have := length_bytesLE_le (show value.natAbs < 256 ^ 8 by omega)
    rw [magnitude, List.length_append, List.length_singleton] at this
    omega
  have lower := valueLE_lt init
  rw [serialize_concat fits zero magnitude]
  by_cases top : last.toNat < 128
  · -- the sign goes into the top bit of the last byte
    have orBit := toNat_or_0x80 top
    by_cases negative : value < 0
    · simp only [top, negative, ↓reduceIte]
      refine ⟨by simp; omega, nonMinimal_concat_of_ne (by omega), ?_⟩
      rw [set_vch_concat _ _ short, orBit, if_neg (by omega), Nat.add_mod_right, Nat.mod_eq_of_lt top,
        valued, Option.some.injEq]
      omega
    · simp only [top, negative, ↓reduceIte]
      refine ⟨by simp; omega, nonMinimal_concat_of_ne (by omega), ?_⟩
      rw [set_vch_concat _ _ short, if_pos top, valued, Option.some.injEq]
      omega
  · -- the sign takes a byte of its own, so the magnitude has at most seven
    have room : init.length < 7 := by
      by_contra long
      have : 256 ^ 7 ≤ 256 ^ init.length := Nat.pow_le_pow_right (by decide) (by omega)
      have : 256 ^ init.length * 128 ≤ 256 ^ init.length * last.toNat := Nat.mul_le_mul_left _ (by omega)
      omega
    have pair : init ++ [last, if value < 0 then 0x80 else 0] =
        (init ++ [last]) ++ [if value < 0 then 0x80 else 0] := by simp
    simp only [top, ↓reduceIte, pair]
    refine ⟨by simp; omega, fun test => ?_, ?_⟩
    · rw [← pair, nonMinimal_concat_pair] at test
      exact top test.2
    · rw [set_vch_concat _ _ (by simp; omega), valueLE_concat, valued, Option.some.injEq]
      by_cases negative : value < 0
      · simp [negative, abs_of_neg negative]
      · simp [negative, abs_of_nonneg (Int.not_lt.mp negative)]

theorem serialize_of_minimal {vch : Bytes} {value : Int} (short : vch.length ≤ 8)
    (minimal : ¬NonMinimal vch) (read : set_vch vch = some value) : serialize value = vch := by
  rcases List.eq_nil_or_concat vch with empty | ⟨init, last, concat⟩
  · subst empty
    rw [set_vch_nil, Option.some.injEq] at read
    subst read
    rfl
  rw [List.concat_eq_append] at concat
  subst concat
  have shortInit : init.length < 8 := by
    simp only [List.length_append, List.length_singleton] at short
    omega
  rw [set_vch_concat _ _ shortInit, Option.some.injEq] at read
  have lower := valueLE_lt init
  have digit := last.toNat_lt
  have room : 256 ^ init.length * 128 ≤ 2 ^ 63 := by
    rw [show (2 : Nat) ^ 63 = 256 ^ 7 * 128 by rfl]
    exact Nat.mul_le_mul_right _ (Nat.pow_le_pow_right (by decide) (by omega))
  have bounded : 256 ^ init.length * (last.toNat % 128) ≤ 256 ^ init.length * 127 :=
    Nat.mul_le_mul_left _ (by omega)
  -- the magnitude read and the sign read
  have natAbs : value.natAbs = valueLE init + 256 ^ init.length * (last.toNat % 128) := by
    split at read
    · rename_i top
      rw [Nat.mod_eq_of_lt top]
      omega
    · omega
  have fits : CInt.InRange 64 value := by
    unfold CInt.InRange
    omega
  by_cases bare : last.toNat % 128 = 0
  · -- a bare sign byte: the byte before it has its top bit set
    rcases List.eq_nil_or_concat init with empty | ⟨init', prev, concat⟩
    · subst empty
      exact absurd ((nonMinimal_singleton last).mpr bare) minimal
    rw [List.concat_eq_append] at concat
    subst concat
    have pair : init' ++ [prev] ++ [last] = init' ++ [prev, last] := by simp
    rw [pair, nonMinimal_concat_pair] at minimal
    have prevTop : 128 ≤ prev.toNat := by omega
    have prevLower := valueLE_lt init'
    have magnitudeValue : valueLE (init' ++ [prev]) = value.natAbs := by
      rw [natAbs, bare, Nat.mul_zero, Nat.add_zero]
    have positive : 0 < value.natAbs := by
      rw [← magnitudeValue, valueLE_concat]
      have : 256 ^ init'.length * 128 ≤ 256 ^ init'.length * prev.toNat := Nat.mul_le_mul_left _ prevTop
      have : 0 < 256 ^ init'.length := by positivity
      omega
    have magnitude : bytesLE value.natAbs = init' ++ [prev] := by
      rw [← magnitudeValue]
      exact bytesLE_valueLE fun _ => by
        rw [List.getLast_concat]
        intro zero
        rw [zero] at prevTop
        exact absurd prevTop (by decide)
    rw [serialize_concat fits (by omega) magnitude, if_neg (by omega), pair]
    -- the bare sign byte is 0x80 for a negative value and 0 otherwise
    congr 3
    apply UInt8.toNat_inj.mp
    split at read <;> split <;> simp <;> omega
  · -- the last byte keeps bits of the magnitude besides the sign
    have lowLast : (last &&& 0x7f).toNat = last.toNat % 128 := toNat_and_0x7f last
    have magnitude : bytesLE value.natAbs = init ++ [last &&& 0x7f] := by
      rw [natAbs, ← lowLast, ← valueLE_concat]
      exact bytesLE_valueLE fun _ => by
        rw [List.getLast_concat, Ne, and_0x7f_eq_zero_iff]
        exact bare
    have positive : 0 < value.natAbs := by
      have : 0 < 256 ^ init.length * (last.toNat % 128) := Nat.mul_pos (by positivity) (by omega)
      omega
    rw [serialize_concat fits (by omega) magnitude, if_pos (by omega)]
    split
    · -- a negative value: the sign goes back into the top bit
      congr 2
      apply UInt8.toNat_inj.mp
      rw [toNat_or_0x80 (by omega), lowLast]
      split at read <;> omega
    · congr 2
      apply UInt8.toNat_inj.mp
      rw [lowLast]
      split at read <;> omega

theorem natAbs_lt_of_set_vch {vch : Bytes} {value : Int} (short : vch.length ≤ 8)
    (read : set_vch vch = some value) : value.natAbs < 2 ^ (8 * vch.length - 1) := by
  rcases List.eq_nil_or_concat vch with empty | ⟨init, last, concat⟩
  · subst empty
    rw [set_vch_nil, Option.some.injEq] at read
    subst read
    decide
  rw [List.concat_eq_append] at concat
  subst concat
  simp only [List.length_append, List.length_singleton] at short ⊢
  rw [set_vch_concat _ _ (by omega), Option.some.injEq] at read
  have lower := valueLE_lt init
  have place : 2 ^ (8 * (init.length + 1) - 1) = 256 ^ init.length * 128 := by
    rw [show 8 * (init.length + 1) - 1 = 8 * init.length + 7 by omega, pow_add, pow_mul]
    rfl
  rw [place]
  split at read
  · rename_i top
    have : 256 ^ init.length * last.toNat ≤ 256 ^ init.length * 127 := Nat.mul_le_mul_left _ (by omega)
    omega
  · have : 256 ^ init.length * (last.toNat % 128) ≤ 256 ^ init.length * 127 :=
      Nat.mul_le_mul_left _ (by omega)
    omega

theorem ofVch_serialize {value : Int} {fRequireMinimal : Bool} {nMaxNumSize : Nat}
    (fits : CInt.InRange 64 value) (notMin : value ≠ CInt.min 64)
    (room : (serialize value).length ≤ nMaxNumSize) :
    ofVch (serialize value) fRequireMinimal nMaxNumSize = some (.ok value) := by
  obtain ⟨-, minimal, read⟩ := serialize_spec fits notMin
  rw [ofVch_of_not_nonMinimal room minimal, read]
  rfl

theorem serialize_of_ofVch {vch : Bytes} {nMaxNumSize : Nat} {value : Int} (short : vch.length ≤ 8)
    (decoded : ofVch vch true nMaxNumSize = some (.ok value)) : serialize value = vch := by
  obtain ⟨-, minimal, read⟩ := ofVch_eq_ok decoded
  exact serialize_of_minimal short minimal read

theorem length_bytesLE_le_length_serialize {value : Int} (fits : CInt.InRange 64 value) :
    (bytesLE value.natAbs).length ≤ (serialize value).length := by
  by_cases zero : value = 0
  · subst zero
    rw [Int.natAbs_zero, bytesLE]
    simp
  obtain ⟨init, last, magnitude, -, -⟩ := bytesLE_eq_concat (Int.natAbs_ne_zero.mpr zero)
  rw [magnitude, serialize_concat fits zero magnitude]
  split_ifs <;> simp

theorem getint_of_inRange {m_value : Int} (fits : CInt.InRange 32 m_value) : getint m_value = m_value := by
  unfold CInt.InRange at fits
  unfold getint CInt.max CInt.min
  rw [if_neg (by omega), if_neg (by omega)]

theorem ofVch_of_ofVch_true {vch : Bytes} {nMaxNumSize : Nat} {value : Int} (fRequireMinimal : Bool)
    (decoded : ofVch vch true nMaxNumSize = some (.ok value)) :
    ofVch vch fRequireMinimal nMaxNumSize = some (.ok value) := by
  obtain ⟨fits, minimal, read⟩ := ofVch_eq_ok decoded
  rw [ofVch_of_not_nonMinimal fits minimal, read]
  rfl

end CScriptNum

end Elements
