import Elements.Serialize
import Elements.Wire.Bits

/-! `VARINT` of `serialize.h`: base-128 digits, most significant first, every digit but the last
flagged with `0x80`. A flagged digit stands for one more than it says, so that no number has two
encodings; the reader refuses a number that would not fit the integer it reads into. -/

namespace Elements

open Wire Wire.Decoder

/-- The loop of `GetSizeOfVarInt`, one count for each digit the writer fills. -/
def getSizeOfVarIntLoop (n nRet : Nat) : Nat :=
  if n ≤ 0x7F then nRet + 1 else getSizeOfVarIntLoop ((n >>> 7) - 1) (nRet + 1)
termination_by n
decreasing_by rw [Nat.shiftRight_eq_div_pow]; omega

def GetSizeOfVarInt (n : Nat) : Nat := getSizeOfVarIntLoop n 0

/-- The loop of `WriteVarInt` filling `tmp`: the low digit first, every later one flagged. -/
def writeVarIntTmp (n len : Nat) : Bytes :=
  let digit := UInt8.ofNat ((n &&& 0x7F) ||| (if len ≠ 0 then 0x80 else 0x00))
  if n ≤ 0x7F then [digit] else digit :: writeVarIntTmp ((n >>> 7) - 1) (len + 1)
termination_by n
decreasing_by rw [Nat.shiftRight_eq_div_pow]; omega

/-- `WriteVarInt`: the digits of `tmp` from the last one filled. -/
def WriteVarInt (n : Nat) : Bytes := (writeVarIntTmp n 0).reverse

def varIntTooLarge : String := "ReadVarInt(): size too large"

/-- The loop of `ReadVarInt` into an integer of `bits` bits, from the number `n` read so far. -/
def readVarIntLoop (bits n : Nat) : Bytes → Except String (Nat × Bytes)
  | [] => .error endOfData
  | chData :: rest =>
      if n > (2 ^ bits - 1) >>> 7 then .error varIntTooLarge
      else
        let n := (n <<< 7) ||| (chData &&& 0x7F).toNat
        if chData &&& 0x80 ≠ 0 then
          if n = 2 ^ bits - 1 then .error varIntTooLarge else readVarIntLoop bits (n + 1) rest
        else .ok (n, rest)

/-- `ReadVarInt<Stream, Mode, I>` for an unsigned `I` of `bits` bits. -/
def ReadVarInt (bits : Nat) : Decoder Nat := readVarIntLoop bits 0

theorem digit_flagged (n : Nat) : (n &&& 0x7F) ||| 0x80 = n % 128 + 128 := by
  rw [show (0x7F : Nat) = 2 ^ 7 - 1 from rfl, Nat.and_two_pow_sub_one_eq_mod, Nat.or_comm,
    show (0x80 : Nat) = 2 ^ 7 * 1 from rfl, ← Nat.two_pow_add_eq_or_of_lt (Nat.mod_lt _ (by decide))]
  omega

theorem digit_last (n : Nat) : (n &&& 0x7F) ||| 0x00 = n % 128 := by
  rw [Nat.or_zero, show (0x7F : Nat) = 2 ^ 7 - 1 from rfl, Nat.and_two_pow_sub_one_eq_mod]

theorem digit_bytes : ∀ d : Fin 128,
    (UInt8.ofNat (d + 128) &&& 0x7F).toNat = d ∧ UInt8.ofNat (d + 128) &&& 0x80 ≠ 0 ∧
      (UInt8.ofNat d &&& 0x7F).toNat = d ∧ UInt8.ofNat d &&& 0x80 = 0 := by
  decide

theorem shiftRight_seven (n : Nat) : n >>> 7 = n / 128 := Nat.shiftRight_eq_div_pow n 7

theorem writeVarIntTmp_eq (n len : Nat) :
    writeVarIntTmp n len =
      let digit := UInt8.ofNat (n % 128 + if len ≠ 0 then 128 else 0)
      if n ≤ 0x7F then [digit] else digit :: writeVarIntTmp (n / 128 - 1) (len + 1) := by
  rw [writeVarIntTmp, shiftRight_seven]
  by_cases flag : len ≠ 0
  · simp only [if_pos flag, digit_flagged]
  · simp only [if_neg flag, digit_last, Nat.add_zero]

theorem writeVarIntTmp_succ (n len : Nat) : writeVarIntTmp n (len + 1) = writeVarIntTmp n 1 := by
  induction n using Nat.strongRecOn generalizing len with
  | ind n ih =>
      rw [writeVarIntTmp_eq n (len + 1), writeVarIntTmp_eq n 1]
      by_cases small : n ≤ 0x7F
      · simp [small]
      · simp only [if_neg small, ne_eq, Nat.add_one_ne_zero, not_false_eq_true, if_true]
        rw [ih _ (by omega) (len + 1), ih _ (by omega) 1]

theorem getSizeOfVarIntLoop_eq (n len nRet : Nat) :
    getSizeOfVarIntLoop n nRet = nRet + (writeVarIntTmp n len).length := by
  induction n using Nat.strongRecOn generalizing len nRet with
  | ind n ih =>
      rw [getSizeOfVarIntLoop, writeVarIntTmp_eq, shiftRight_seven]
      dsimp only
      by_cases small : n ≤ 0x7F
      · rw [if_pos small, if_pos small, List.length_singleton]
      · rw [if_neg small, if_neg small, List.length_cons, ih _ (by omega) (len + 1)]
        omega

theorem length_WriteVarInt (n : Nat) : (WriteVarInt n).length = GetSizeOfVarInt n := by
  rw [WriteVarInt, List.length_reverse, GetSizeOfVarInt, getSizeOfVarIntLoop_eq n 0 0, Nat.zero_add]

/-- The flagged digits that bring the reader from nothing to `n`. -/
def flaggedDigits : Nat → Bytes
  | 0 => []
  | q + 1 => (writeVarIntTmp q 1).reverse

theorem writeVarIntTmp_reverse (m len : Nat) :
    (writeVarIntTmp m len).reverse =
      flaggedDigits (m / 128) ++ [UInt8.ofNat (m % 128 + if len ≠ 0 then 128 else 0)] := by
  rw [writeVarIntTmp_eq]
  dsimp only
  by_cases small : m ≤ 0x7F
  · rw [if_pos small, Nat.div_eq_of_lt (by omega), flaggedDigits, List.reverse_singleton, List.nil_append]
  · obtain ⟨q, above⟩ : ∃ q, m / 128 = q + 1 := ⟨m / 128 - 1, by omega⟩
    rw [if_neg small, List.reverse_cons, writeVarIntTmp_succ, above, flaggedDigits, Nat.add_sub_cancel]

section Digits

variable {n d : Nat}

theorem div_digit (small : d < 128) : (n * 128 + d) / 128 = n := by omega

theorem mod_digit (small : d < 128) : (n * 128 + d) % 128 = d := by omega

theorem flaggedDigits_succ (small : d < 128) :
    flaggedDigits (n * 128 + d + 1) = flaggedDigits n ++ [UInt8.ofNat (d + 128)] := by
  rw [flaggedDigits, writeVarIntTmp_reverse, if_pos one_ne_zero, div_digit small, mod_digit small]

theorem WriteVarInt_digits (small : d < 128) :
    WriteVarInt (n * 128 + d) = flaggedDigits n ++ [UInt8.ofNat d] := by
  rw [WriteVarInt, writeVarIntTmp_reverse, if_neg (by decide), div_digit small, mod_digit small, Nat.add_zero]

end Digits

set_option maxRecDepth 20000 in
theorem byte_digits : ∀ b : UInt8,
    (b &&& 0x7F).toNat < 128 ∧ (b &&& 0x80 ≠ 0 → b = UInt8.ofNat ((b &&& 0x7F).toNat + 128)) ∧
      (b &&& 0x80 = 0 → b = UInt8.ofNat (b &&& 0x7F).toNat) := by
  decide

section Reader

variable {bits n d : Nat} {rest : Bytes}

theorem readVarIntLoop_flagged (small : d < 128) (fits : n * 128 + d < 2 ^ bits - 1) :
    readVarIntLoop bits n (UInt8.ofNat (d + 128) :: rest) = readVarIntLoop bits (n * 128 + d + 1) rest := by
  obtain ⟨low, flag, -, -⟩ := digit_bytes ⟨d, small⟩
  have inRange : ¬ n > (2 ^ bits - 1) >>> 7 := by rw [Nat.shiftRight_eq_div_pow]; omega
  have value : n <<< 7 ||| d = n * 128 + d := Wire.shiftLeft_or_eq_add small
  simp only [readVarIntLoop, if_neg inRange, low, value, if_pos flag, if_neg (Nat.ne_of_lt fits)]

theorem readVarIntLoop_last (small : d < 128) (fits : n * 128 + d ≤ 2 ^ bits - 1) :
    readVarIntLoop bits n (UInt8.ofNat d :: rest) = .ok (n * 128 + d, rest) := by
  obtain ⟨-, -, low, flag⟩ := digit_bytes ⟨d, small⟩
  have inRange : ¬ n > (2 ^ bits - 1) >>> 7 := by rw [Nat.shiftRight_eq_div_pow]; omega
  have value : n <<< 7 ||| d = n * 128 + d := Wire.shiftLeft_or_eq_add small
  simp only [readVarIntLoop, if_neg inRange, low, value, flag, ne_eq, not_true_eq_false, if_false]

theorem readVarIntLoop_writeVarIntTmp (q : Nat) (below : q < 2 ^ bits - 1) (rest : Bytes) :
    readVarIntLoop bits 0 ((writeVarIntTmp q 1).reverse ++ rest) = readVarIntLoop bits (q + 1) rest := by
  induction q using Nat.strongRecOn generalizing rest with
  | ind q ih =>
      rw [writeVarIntTmp_eq]
      dsimp only
      by_cases small : q ≤ 0x7F
      · rw [if_pos small, List.reverse_singleton, List.singleton_append, if_pos one_ne_zero,
          readVarIntLoop_flagged (by omega) (by omega), Nat.zero_mul, Nat.zero_add, Nat.mod_eq_of_lt (by omega)]
      · -- the digits of `q / 128 - 1` leave `q / 128`, and the low digit completes `q`
        rw [if_neg small, List.reverse_cons, List.append_assoc, List.singleton_append, if_pos one_ne_zero,
          writeVarIntTmp_succ, ih _ (by omega) (by omega),
          Nat.sub_add_cancel (by omega), readVarIntLoop_flagged (Nat.mod_lt _ (by decide)) (by omega),
          Nat.div_add_mod']

theorem readVarIntLoop_eq_ok {input : Bytes} {v : Nat} (read : readVarIntLoop bits n input = .ok (v, rest)) :
    flaggedDigits n ++ input = WriteVarInt v ++ rest := by
  induction input generalizing n with
  | nil => cases read
  | cons chData input ih =>
      obtain ⟨small, flagged, last⟩ := byte_digits chData
      have value : n <<< 7 ||| (chData &&& 0x7F).toNat = n * 128 + (chData &&& 0x7F).toNat :=
        Wire.shiftLeft_or_eq_add small
      rw [readVarIntLoop] at read
      dsimp only at read
      rw [value] at read
      by_cases tooLarge : n > (2 ^ bits - 1) >>> 7
      · rw [if_pos tooLarge] at read
        cases read
      rw [if_neg tooLarge] at read
      by_cases flag : chData &&& 0x80 ≠ 0
      · -- a flagged digit joins the flagged digits of the next state
        rw [if_pos flag] at read
        by_cases overflow : n * 128 + (chData &&& 0x7F).toNat = 2 ^ bits - 1
        · rw [if_pos overflow] at read
          cases read
        rw [if_neg overflow] at read
        rw [← ih read, flaggedDigits_succ small, ← flagged flag, List.append_assoc, List.singleton_append]
      · -- the last digit ends the encoding of the value
        rw [if_neg flag] at read
        cases read
        rw [WriteVarInt_digits small, ← last (by simpa using flag), List.append_assoc, List.singleton_append]

end Reader

theorem ReadVarInt_canonical (bits : Nat) : Canonical WriteVarInt (ReadVarInt bits) :=
  fun _ _ _ read => (readVarIntLoop_eq_ok read).symm

theorem ReadVarInt_roundTrip (bits n : Nat) (fits : n < 2 ^ bits) :
    RoundTrip WriteVarInt (ReadVarInt bits) n := by
  intro rest
  rw [WriteVarInt, ReadVarInt, writeVarIntTmp_eq]
  dsimp only
  by_cases small : n ≤ 0x7F
  · rw [if_pos small, if_neg (by decide), Nat.add_zero, List.reverse_singleton, List.singleton_append,
      readVarIntLoop_last (by omega) (by omega), Nat.zero_mul, Nat.zero_add, Nat.mod_eq_of_lt (by omega)]
  · rw [if_neg small, if_neg (by decide), Nat.add_zero, List.reverse_cons, List.append_assoc,
      List.singleton_append, writeVarIntTmp_succ, readVarIntLoop_writeVarIntTmp _ (by omega),
      Nat.sub_add_cancel (by omega), readVarIntLoop_last (Nat.mod_lt _ (by decide)) (by omega),
      Nat.div_add_mod']

/-- Both variable-length encodings are bijections: VARINT for an unsigned integer of any width,
CompactSize up to `MAX_SIZE`; each reads back what it wrote, from exactly as many bytes as its
size function says, and accepts nothing but what it writes. -/
theorem varInt_compactSize_bijective :
    (∀ bits n, n < 2 ^ bits →
      RoundTrip WriteVarInt (ReadVarInt bits) n ∧ (WriteVarInt n).length = GetSizeOfVarInt n) ∧
    (∀ bits, Canonical WriteVarInt (ReadVarInt bits)) ∧
    (∀ (rangeCheck : Bool) (nSize : UInt64), nSize.toNat ≤ MAX_SIZE →
      RoundTrip WriteCompactSize (ReadCompactSize rangeCheck) nSize ∧
        (WriteCompactSize nSize).length = GetSizeOfCompactSize nSize) ∧
    (∀ rangeCheck, Canonical WriteCompactSize (ReadCompactSize rangeCheck)) := by
  refine ⟨fun bits n fits => ⟨ReadVarInt_roundTrip bits n fits, length_WriteVarInt n⟩, ReadVarInt_canonical, ?_,
    ReadCompactSize_canonical⟩
  intro rangeCheck nSize fits
  exact ⟨ReadCompactSize_roundTrip rangeCheck nSize (fun _ => fits), length_WriteCompactSize nSize⟩

end Elements
