import Elements.Script.Interpreter

/-! `script/interpreter.cpp`: `OP_RSHIFT` and `OP_LSHIFT`, which Elements
re-enables. Both read the byte vector below the shift as an unsigned
little-endian number; the shift is cut into whole bytes and a bit offset, and
a loop carries the bits that cross a byte boundary through a 16-bit register.
The result is stripped of its trailing zero bytes, so that it is the shortest
encoding of the quotient or the product by `2 ^ n`. -/

namespace Elements

open Wire

def MAX_SCRIPT_ELEMENT_SIZE : Nat := 520

/-- The loop of `OP_RSHIFT`, from the most significant byte down:
`temp = (vch2[i] << (8 - bits)) | ((temp << 8) & 0xff00); vch2[i] = (temp & 0xff00) >> 8`.
It returns `temp` after the last byte it processed, and the bytes written. -/
def rshiftLoop (bits : Nat) : Bytes → Nat × Bytes
  | [] => (0, [])
  | byte :: rest =>
      -- the more significant bytes are processed first
      let (temp, written) := rshiftLoop bits rest
      let temp := ((byte.toNat <<< (8 - bits)) ||| ((temp <<< 8) &&& 0xff00)) % 2 ^ 16
      (temp, UInt8.ofNat ((temp &&& 0xff00) >>> 8) :: written)

/-- The loop of `OP_LSHIFT`, from the least significant byte up:
`temp = (vch2[i] << bits) | (temp >> 8); vch2[i] = temp & 0xff`. -/
def lshiftLoop (bits : Nat) : Nat → Bytes → Bytes
  | _, [] => []
  | temp, byte :: rest =>
      let temp := ((byte.toNat <<< bits) ||| (temp >>> 8)) % 2 ^ 16
      UInt8.ofNat (temp &&& 0xff) :: lshiftLoop bits temp rest

/-- `case OP_RSHIFT:` of `EvalScript`. -/
def EvalRShift (fRequireMinimal : Bool) (stack : List valtype) :
    Option (Except ScriptError (List valtype)) :=
  match stack with
  | vchn :: vch1 :: rest => do
      match ← CScriptNum.ofVch vchn fRequireMinimal CScriptNum.nDefaultMaxNumSize with
      | .error _ => pure (.error .SCRIPT_ERR_UNKNOWN_ERROR)
      | .ok bn =>
          if bn < 0 then pure (.error .SCRIPT_ERR_UNKNOWN_ERROR)
          else
            let full_bytes := ((CScriptNum.getint bn).tdiv 8).toNat
            let bits := ((CScriptNum.getint bn).tmod 8).toNat
            if full_bytes ≥ vch1.length then pure (.ok (vchZero :: rest))
            else
              let vch2 := (rshiftLoop bits (vch1.drop full_bytes)).2
              -- 0x0fff >> 4 == 0x00ff or 0xff, reduce to minimal representation
              pure (.ok (vch2.rdropWhile (· == 0) :: rest))
  | _ => some (.error .SCRIPT_ERR_INVALID_STACK_OPERATION)

/-- `case OP_LSHIFT:` of `EvalScript`. -/
def EvalLShift (fRequireMinimal : Bool) (stack : List valtype) :
    Option (Except ScriptError (List valtype)) :=
  match stack with
  | vchn :: vch1 :: rest => do
      match ← CScriptNum.ofVch vchn fRequireMinimal CScriptNum.nDefaultMaxNumSize with
      | .error _ => pure (.error .SCRIPT_ERR_UNKNOWN_ERROR)
      | .ok bn =>
          if bn < 0 then pure (.error .SCRIPT_ERR_INVALID_STACK_OPERATION)
          else
            let full_bytes := ((CScriptNum.getint bn).tdiv 8).toNat
            let bits := ((CScriptNum.getint bn).tmod 8).toNat
            if vch1.length + full_bytes + (if bits ≠ 0 then 1 else 0) > MAX_SCRIPT_ELEMENT_SIZE then
              pure (.error .SCRIPT_ERR_INVALID_STACK_OPERATION)
            else
              let vch2 := lshiftLoop bits 0 (List.replicate full_bytes 0 ++ vch1 ++ [0])
              -- reduce to minimal representation
              pure (.ok (vch2.rdropWhile (· == 0) :: rest))
  | _ => some (.error .SCRIPT_ERR_INVALID_STACK_OPERATION)

section Loops

variable {bits : Nat}

theorem rshiftLoop_cons (byte : UInt8) (rest : Bytes) :
    rshiftLoop bits (byte :: rest) =
      let temp := ((byte.toNat <<< (8 - bits)) ||| (((rshiftLoop bits rest).1 <<< 8) &&& 0xff00)) % 2 ^ 16
      (temp, UInt8.ofNat ((temp &&& 0xff00) >>> 8) :: (rshiftLoop bits rest).2) := rfl

theorem two_pow_mul_two_pow_sub (bits_le : bits ≤ 8) : 2 ^ bits * 2 ^ (8 - bits) = 256 := by
  rw [← Nat.pow_add, Nat.add_sub_cancel' bits_le]

theorem rshift_register {temp carry byte : Nat} (bits_le : bits ≤ 8) (digit : byte < 256)
    (carried : carry < 2 ^ bits) (low : temp % 256 = carry * 2 ^ (8 - bits)) :
    ((byte <<< (8 - bits)) ||| ((temp <<< 8) &&& 0xff00)) % 2 ^ 16 =
      (byte + carry * 256) * 2 ^ (8 - bits) := by
  have whole := two_pow_mul_two_pow_sub bits_le
  have high : (temp <<< 8) &&& 0xff00 = (carry <<< 8) <<< (8 - bits) := by
    rw [shiftLeft_eight_and, low, Nat.shiftLeft_eq, Nat.shiftLeft_eq]
    ring
  have fits : (byte + carry * 256) * 2 ^ (8 - bits) < 2 ^ 16 :=
    calc (byte + carry * 256) * 2 ^ (8 - bits) < 2 ^ bits * 256 * 2 ^ (8 - bits) :=
          Nat.mul_lt_mul_of_pos_right (by omega) (by positivity)
      _ = 2 ^ 16 := by rw [Nat.mul_right_comm, whole]; norm_num
  rw [high, ← Nat.shiftLeft_or_distrib, Nat.lor_comm, shiftLeft_or_eq_add (b := byte) digit,
    Nat.shiftLeft_eq, show (2 : Nat) ^ 8 = 256 from rfl, Nat.add_comm, Nat.mod_eq_of_lt fits]

theorem add_mul_eq_carry (byte rest p : Nat) :
    byte + 256 * rest = byte + rest % p * 256 + 256 * (rest / p) * p := by
  have split := Nat.mod_add_div rest p
  calc byte + 256 * rest = byte + 256 * (rest % p + p * (rest / p)) := by rw [split]
    _ = byte + rest % p * 256 + 256 * (rest / p) * p := by ring

theorem rshiftLoop_spec (bits_le : bits ≤ 8) (bytes : Bytes) :
    (rshiftLoop bits bytes).1 % 256 = valueLE bytes % 2 ^ bits * 2 ^ (8 - bits) ∧
      valueLE (rshiftLoop bits bytes).2 = valueLE bytes / 2 ^ bits := by
  induction bytes with
  | nil => simp [rshiftLoop, valueLE]
  | cons byte rest ih =>
      obtain ⟨low, quotient⟩ := ih
      have whole := two_pow_mul_two_pow_sub bits_le
      have positive : 0 < 2 ^ bits := by positivity
      have carried : valueLE rest % 2 ^ bits < 2 ^ bits := Nat.mod_lt _ positive
      have register := rshift_register bits_le byte.toNat_lt carried low
      have fits : (byte.toNat + valueLE rest % 2 ^ bits * 256) * 2 ^ (8 - bits) < 2 ^ 16 := by
        rw [← register]
        exact Nat.mod_lt _ (by positivity)
      -- the byte written is the register's high byte: the quotient of byte and carry
      have written : (byte.toNat + valueLE rest % 2 ^ bits * 256) * 2 ^ (8 - bits) / 256 =
          (byte.toNat + valueLE rest % 2 ^ bits * 256) / 2 ^ bits := by
        rw [← whole, Nat.mul_div_mul_right _ _ (by positivity)]
      have carry := add_mul_eq_carry byte.toNat (valueLE rest) (2 ^ bits)
      rw [rshiftLoop_cons]
      dsimp only
      rw [register, and_shiftRight_eight fits]
      constructor
      · have lowByte := Nat.mul_mod_mul_right (2 ^ (8 - bits)) (byte.toNat + valueLE rest % 2 ^ bits * 256)
          (2 ^ bits)
        rw [whole] at lowByte
        rw [lowByte, valueLE, carry, Nat.add_mul_mod_self_right]
      · rw [valueLE, valueLE, quotient, UInt8.toNat_ofNat', Nat.mod_eq_of_lt (by omega), written,
          carry, Nat.add_mul_div_right _ _ positive]

theorem lshift_register {temp byte : Nat} (bits_le : bits ≤ 8) (digit : byte < 256)
    (carried : temp / 256 < 2 ^ bits) :
    ((byte <<< bits) ||| (temp >>> 8)) % 2 ^ 16 = byte * 2 ^ bits + temp / 256 := by
  have wide : 2 ^ bits ≤ 256 := by
    calc 2 ^ bits ≤ 2 ^ 8 := Nat.pow_le_pow_right (by decide) bits_le
      _ = 256 := rfl
  have fits : byte * 2 ^ bits + temp / 256 < 2 ^ 16 :=
    calc byte * 2 ^ bits + temp / 256 < byte * 2 ^ bits + 2 ^ bits := by omega
      _ = (byte + 1) * 2 ^ bits := by ring
      _ ≤ 256 * 256 := Nat.mul_le_mul (by omega) wide
      _ = 2 ^ 16 := rfl
  rw [Nat.shiftRight_eq_div_pow, show (2 : Nat) ^ 8 = 256 from rfl, shiftLeft_or_eq_add carried,
    Nat.mod_eq_of_lt fits]

theorem lshiftLoop_value (bits_le : bits ≤ 8) (bytes : Bytes) (temp : Nat)
    (carried : temp / 256 < 2 ^ bits) :
    valueLE (lshiftLoop bits temp bytes) = (valueLE bytes * 2 ^ bits + temp / 256) % 256 ^ bytes.length := by
  induction bytes generalizing temp with
  | nil => simp [lshiftLoop, valueLE, Nat.mod_one]
  | cons byte rest ih =>
      have register := lshift_register bits_le byte.toNat_lt carried
      have wide : 2 ^ bits ≤ 256 := by
        calc 2 ^ bits ≤ 2 ^ 8 := Nat.pow_le_pow_right (by decide) bits_le
          _ = 256 := rfl
      -- the register after this byte carries what it shifted out on to the next
      have nextCarried : (byte.toNat * 2 ^ bits + temp / 256) / 256 < 2 ^ bits := by
        rw [Nat.div_lt_iff_lt_mul (by decide)]
        have digit := byte.toNat_lt
        calc byte.toNat * 2 ^ bits + temp / 256 < byte.toNat * 2 ^ bits + 2 ^ bits := by omega
          _ = (byte.toNat + 1) * 2 ^ bits := by ring
          _ ≤ 256 * 2 ^ bits := Nat.mul_le_mul_right _ (by omega)
          _ = 2 ^ bits * 256 := Nat.mul_comm _ _
      have regroup : (byte.toNat + 256 * valueLE rest) * 2 ^ bits + temp / 256 =
          byte.toNat * 2 ^ bits + temp / 256 + 256 * (valueLE rest * 2 ^ bits) := by ring
      simp only [lshiftLoop, register, valueLE, ih _ nextCarried, List.length_cons]
      rw [regroup, pow_succ', Nat.mod_mul, Nat.add_mul_mod_self_left, Nat.add_mul_div_left _ _ (by decide),
        show (0xff : Nat) = 2 ^ 8 - 1 from rfl, Nat.and_two_pow_sub_one_eq_mod, UInt8.toNat_ofNat', Nat.mod_mod,
        Nat.add_comm (valueLE rest * 2 ^ bits)]

end Loops

section Opcodes

variable {fRequireMinimal : Bool} {vchn : valtype} {n : Int}

theorem pow_eq_bytes_mul_bits (n : Nat) : 256 ^ (n / 8) * 2 ^ (n % 8) = 2 ^ n := by
  rw [show (256 : Nat) = 2 ^ 8 from rfl, ← Nat.pow_mul, ← Nat.pow_add, Nat.div_add_mod]

theorem shift_amount (accepted : CScriptNum.ofVch vchn fRequireMinimal CScriptNum.nDefaultMaxNumSize = some (.ok n))
    (nonneg : 0 ≤ n) :
    ((CScriptNum.getint n).tdiv 8).toNat = n.toNat / 8 ∧ ((CScriptNum.getint n).tmod 8).toNat = n.toNat % 8 := by
  obtain ⟨short, read⟩ := CScriptNum.ofVch_read accepted
  rw [CScriptNum.getint_of_inRange (inRange_of_short short read), Int.tdiv_eq_ediv_of_nonneg nonneg,
    Int.tmod_eq_emod_of_nonneg nonneg]
  omega

theorem lshiftLoop_padded {bits : Nat} (bits_le : bits ≤ 8) (full : Nat) (vch : Bytes) :
    valueLE (lshiftLoop bits 0 (List.replicate full 0 ++ vch ++ [0])) = valueLE vch * (256 ^ full * 2 ^ bits) := by
  have zeros : valueLE (List.replicate full 0) = 0 :=
    valueLE_eq_zero_of_forall fun _ member => List.eq_of_mem_replicate member
  have padded : valueLE (List.replicate full 0 ++ vch ++ [0]) = 256 ^ full * valueLE vch := by
    rw [valueLE_append, valueLE_append, zeros, List.length_replicate]
    simp [valueLE]
  have fits : valueLE vch * (256 ^ full * 2 ^ bits) < 256 ^ (full + vch.length + 1) :=
    calc valueLE vch * (256 ^ full * 2 ^ bits) < 256 ^ vch.length * (256 ^ full * 2 ^ bits) :=
          Nat.mul_lt_mul_of_pos_right (valueLE_lt vch) (by positivity)
      _ ≤ 256 ^ vch.length * (256 ^ full * 2 ^ 8) := by gcongr; decide
      _ = 256 ^ (full + vch.length + 1) := by rw [pow_succ, pow_add]; ring
  rw [lshiftLoop_value bits_le _ 0 (by simp), padded, Nat.zero_div, Nat.add_zero, List.length_append,
    List.length_append, List.length_replicate, List.length_singleton,
    show 256 ^ full * valueLE vch * 2 ^ bits = valueLE vch * (256 ^ full * 2 ^ bits) by ring,
    Nat.mod_eq_of_lt fits]

theorem length_lshift_le (vch : Bytes) (n : Nat) :
    (bytesLE (valueLE vch * 2 ^ n)).length ≤ vch.length + n / 8 + (if n % 8 ≠ 0 then 1 else 0) := by
  apply length_bytesLE_le
  have offset : 2 ^ (n % 8) ≤ 256 ^ (if n % 8 ≠ 0 then 1 else 0) := by
    split
    · calc 2 ^ (n % 8) ≤ 2 ^ 8 := Nat.pow_le_pow_right (by decide) (by omega)
        _ = 256 ^ 1 := rfl
    · rename_i aligned
      simp [not_not.mp aligned]
  calc valueLE vch * 2 ^ n = valueLE vch * (256 ^ (n / 8) * 2 ^ (n % 8)) := by rw [pow_eq_bytes_mul_bits]
    _ < 256 ^ vch.length * (256 ^ (n / 8) * 2 ^ (n % 8)) :=
        Nat.mul_lt_mul_of_pos_right (valueLE_lt vch) (by positivity)
    _ ≤ 256 ^ vch.length * (256 ^ (n / 8) * 256 ^ (if n % 8 ≠ 0 then 1 else 0)) := by gcongr
    _ = 256 ^ (vch.length + n / 8 + (if n % 8 ≠ 0 then 1 else 0)) := by rw [pow_add, pow_add, mul_assoc]

theorem EvalRShift_accepted (vch1 : valtype) (rest : List valtype)
    (accepted : CScriptNum.ofVch vchn fRequireMinimal CScriptNum.nDefaultMaxNumSize = some (.ok n))
    (nonneg : 0 ≤ n) :
    EvalRShift fRequireMinimal (vchn :: vch1 :: rest) = some (.ok (bytesLE (valueLE vch1 / 2 ^ n.toNat) :: rest)) := by
  obtain ⟨full, bits⟩ := shift_amount accepted nonneg
  simp only [EvalRShift, accepted, Option.bind_eq_bind, Option.bind_some, Option.pure_def,
    not_lt.mpr nonneg, if_false, full, bits]
  split
  · -- every byte is shifted out
    rename_i dropsAll
    have below : valueLE vch1 < 2 ^ n.toNat :=
      calc valueLE vch1 < 256 ^ vch1.length := valueLE_lt vch1
        _ ≤ 256 ^ (n.toNat / 8) := Nat.pow_le_pow_right (by decide) dropsAll
        _ ≤ 256 ^ (n.toNat / 8) * 2 ^ (n.toNat % 8) := Nat.le_mul_of_pos_right _ (by positivity)
        _ = 2 ^ n.toNat := pow_eq_bytes_mul_bits n.toNat
    rw [Nat.div_eq_of_lt below, bytesLE_zero]
    rfl
  · rw [rdropWhile_zero_eq_bytesLE, (rshiftLoop_spec (by omega) _).2, valueLE_drop, Nat.div_div_eq_div_mul,
      pow_eq_bytes_mul_bits]

theorem EvalLShift_accepted (vch1 : valtype) (rest : List valtype)
    (accepted : CScriptNum.ofVch vchn fRequireMinimal CScriptNum.nDefaultMaxNumSize = some (.ok n))
    (nonneg : 0 ≤ n) :
    EvalLShift fRequireMinimal (vchn :: vch1 :: rest) =
      some (if vch1.length + n.toNat / 8 + (if n.toNat % 8 ≠ 0 then 1 else 0) > MAX_SCRIPT_ELEMENT_SIZE then
        .error .SCRIPT_ERR_INVALID_STACK_OPERATION
      else .ok (bytesLE (valueLE vch1 * 2 ^ n.toNat) :: rest)) := by
  obtain ⟨full, bits⟩ := shift_amount accepted nonneg
  simp only [EvalLShift, accepted, Option.bind_eq_bind, Option.bind_some, Option.pure_def,
    not_lt.mpr nonneg, if_false, full, bits]
  by_cases refused : vch1.length + n.toNat / 8 + (if n.toNat % 8 ≠ 0 then 1 else 0) > MAX_SCRIPT_ELEMENT_SIZE
  · rw [if_pos refused, if_pos refused]
  · rw [if_neg refused, if_neg refused, rdropWhile_zero_eq_bytesLE, lshiftLoop_padded (by omega),
      pow_eq_bytes_mul_bits]

theorem EvalLShift_length_le (stack : List valtype) {out : valtype} {rest : List valtype}
    (pushed : EvalLShift fRequireMinimal stack = some (.ok (out :: rest))) :
    out.length ≤ MAX_SCRIPT_ELEMENT_SIZE := by
  match stack, pushed with
  | vchn :: vch1 :: rest', pushed =>
      cases decoded : CScriptNum.ofVch vchn fRequireMinimal CScriptNum.nDefaultMaxNumSize with
      | none => simp [EvalLShift, decoded] at pushed
      | some result =>
          cases result with
          | error _ => simp [EvalLShift, decoded] at pushed
          | ok bn =>
              by_cases negative : bn < 0
              · simp [EvalLShift, decoded, negative] at pushed
              · rw [EvalLShift_accepted vch1 rest' decoded (by omega)] at pushed
                by_cases refused : vch1.length + bn.toNat / 8 + (if bn.toNat % 8 ≠ 0 then 1 else 0) >
                    MAX_SCRIPT_ELEMENT_SIZE
                · rw [if_pos refused] at pushed
                  cases pushed
                · simp only [if_neg refused, Option.some.injEq, Except.ok.injEq, List.cons.injEq] at pushed
                  rw [← pushed.1]
                  exact le_trans (length_lshift_le vch1 bn.toNat) (by omega)
  | [], pushed => simp [EvalLShift] at pushed
  | [_], pushed => simp [EvalLShift] at pushed

end Opcodes

theorem shift_divides_multiplies (fRequireMinimal : Bool) (vchn v : valtype) (rest : List valtype) (n : Int)
    (accepted : CScriptNum.ofVch vchn fRequireMinimal CScriptNum.nDefaultMaxNumSize = some (.ok n))
    (nonneg : 0 ≤ n) :
    EvalRShift fRequireMinimal (vchn :: v :: rest) = some (.ok (bytesLE (valueLE v / 2 ^ n.toNat) :: rest)) ∧
    EvalLShift fRequireMinimal (vchn :: v :: rest) =
      some (if v.length + n.toNat / 8 + (if n.toNat % 8 ≠ 0 then 1 else 0) > MAX_SCRIPT_ELEMENT_SIZE then
        .error .SCRIPT_ERR_INVALID_STACK_OPERATION
      else .ok (bytesLE (valueLE v * 2 ^ n.toNat) :: rest)) ∧
    ∀ (f : Bool) (stack : List valtype) (out : valtype) (rest' : List valtype),
      EvalLShift f stack = some (.ok (out :: rest')) → out.length ≤ MAX_SCRIPT_ELEMENT_SIZE :=
  ⟨EvalRShift_accepted v rest accepted nonneg, EvalLShift_accepted v rest accepted nonneg,
    fun _ stack _ _ pushed => EvalLShift_length_le stack pushed⟩

/-- Shifting the byte `1` by three bits: down it leaves nothing, up it is `8`. -/
theorem shift_divides_multiplies_one_by_three :
    EvalRShift true [[3], [1]] = some (.ok [[]]) ∧ EvalLShift true [[3], [1]] = some (.ok [[8]]) := by
  obtain ⟨down, up, -⟩ := shift_divides_multiplies true [3] [1] [] 3 (by decide) (by decide)
  refine ⟨by rw [down]; simp [valueLE], by rw [up]; simp [valueLE, bytesLE, MAX_SCRIPT_ELEMENT_SIZE]⟩

end Elements
