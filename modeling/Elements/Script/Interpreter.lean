import Elements.Script.ScriptNum
import Elements.Script.Sighash

/-! `script/interpreter.cpp`: the cases of `EvalScript` for the 64-bit
arithmetic that Elements adds to tapscript, and the conversions between its
8-byte two's-complement operands and script numbers.

Each case is a step on the stack, which is kept here with its top first. A step
returns the new stack or the error `EvalScript` returns with, and `none` where
the C++ would execute a signed operation whose result does not fit: every
signed operation goes through `CInt`, so that a step that is never `none` never
overflows. -/

namespace Elements

open Wire

/-- `valtype`: a stack element. -/
abbrev valtype := Bytes

/-- The `ScriptError` values these cases return. -/
inductive ScriptError where
  | SCRIPT_ERR_UNKNOWN_ERROR
  | SCRIPT_ERR_BAD_OPCODE
  | SCRIPT_ERR_INVALID_STACK_OPERATION
  | SCRIPT_ERR_EXPECTED_8BYTES
  | SCRIPT_ERR_ARITHMETIC64
  deriving DecidableEq, Repr

def vchFalse : valtype := []
def vchZero : valtype := []
def vchTrue : valtype := [1]

def INT64_MIN : Int := CInt.min 64
def INT64_MAX : Int := CInt.max 64

/-- `cast_signed64`: the two's-complement reading of a `uint64_t`, with one
signed addition. -/
def cast_signed64 (v : Nat) : Option Int :=
  let int64_min := CInt.toUnsigned 64 INT64_MIN
  if v ≥ int64_min then CInt.add 64 (CInt.ofUnsigned 64 (v - int64_min)) INT64_MIN
  else some (CInt.ofUnsigned 64 v)

/-- `read_le8_signed`: the first eight bytes as a little-endian `int64_t`. -/
def read_le8_signed (vch : valtype) : Option Int := cast_signed64 (valueLE (vch.take 8))

/-- `push8_le`: the eight little-endian bytes of the `uint64_t` the value converts to. -/
def push8_le (v : Int) : valtype := writeLE 8 (CInt.toUnsigned 64 v)

def IsPreTapscript (sigversion : SigVersion) : Prop :=
  sigversion = .BASE ∨ sigversion = .WITNESS_V0

instance (sigversion : SigVersion) : Decidable (IsPreTapscript sigversion) :=
  inferInstanceAs (Decidable (_ ∨ _))

inductive Arith64Opcode where
  | OP_ADD64
  | OP_SUB64
  | OP_MUL64
  | OP_DIV64
  | OP_LESSTHAN64
  | OP_LESSTHANOREQUAL64
  | OP_GREATERTHAN64
  | OP_GREATERTHANOREQUAL64
  deriving DecidableEq, Repr

def add64Overflows (a b : Int) : Option Bool :=
  CInt.orElse (CInt.andThen (a > 0) ((fun limit => decide (b > limit)) <$> CInt.sub 64 INT64_MAX a))
    (CInt.andThen (a < 0) ((fun limit => decide (b < limit)) <$> CInt.sub 64 INT64_MIN a))

def sub64Overflows (a b : Int) : Option Bool :=
  CInt.orElse (CInt.andThen (b > 0) ((fun limit => decide (a < limit)) <$> CInt.add 64 INT64_MIN b))
    (CInt.andThen (b < 0) ((fun limit => decide (a > limit)) <$> CInt.add 64 INT64_MAX b))

/-- The four sign cases of `OP_MUL64`, each comparing with a limit divided by one operand. -/
def mul64Overflows (a b : Int) : Option Bool :=
  CInt.orElse
    (CInt.orElse
      (CInt.orElse
        (CInt.andThen (a > 0 && b > 0) ((fun limit => decide (a > limit)) <$> CInt.div 64 INT64_MAX b))
        (CInt.andThen (a > 0 && b < 0) ((fun limit => decide (b < limit)) <$> CInt.div 64 INT64_MIN a)))
      (CInt.andThen (a < 0 && b > 0) ((fun limit => decide (a < limit)) <$> CInt.div 64 INT64_MIN b)))
    (CInt.andThen (a < 0 && b < 0) ((fun limit => decide (b < limit)) <$> CInt.div 64 INT64_MAX a))

/-- The quotient and remainder of `OP_DIV64`: C's truncating pair, moved so
that the remainder is not negative. -/
def div64Euclid (a b : Int) : Option (Int × Int) := do
  let r ← CInt.rem 64 a b
  let q ← CInt.div 64 a b
  -- ensures that 0 <= r < |b|
  if r < 0 ∧ b > 0 then
    let r' ← CInt.add 64 r b
    let q' ← CInt.sub 64 q 1
    pure (q', r')
  else if r < 0 ∧ b < 0 then
    let r' ← CInt.sub 64 r b
    let q' ← CInt.add 64 q 1
    pure (q', r')
  else pure (q, r)

/-- The `switch (opcode)` once both operands are read: the stack it leaves,
given the stack before and the stack below the two operands. -/
def arith64Switch (opcode : Arith64Opcode) (a b : Int) (stack rest : List valtype) :
    Option (List valtype) :=
  match opcode with
  | .OP_ADD64 => do
      if ← add64Overflows a b then pure (vchFalse :: stack)
      else do
        let sum ← CInt.add 64 a b
        pure (vchTrue :: push8_le sum :: rest)
  | .OP_SUB64 => do
      if ← sub64Overflows a b then pure (vchFalse :: stack)
      else do
        let difference ← CInt.sub 64 a b
        pure (vchTrue :: push8_le difference :: rest)
  | .OP_MUL64 => do
      if ← mul64Overflows a b then pure (vchFalse :: stack)
      else do
        let product ← CInt.mul 64 a b
        pure (vchTrue :: push8_le product :: rest)
  | .OP_DIV64 =>
      if b = 0 ∨ (b = -1 ∧ a = INT64_MIN) then some (vchFalse :: stack)
      else do
        let (q, r) ← div64Euclid a b
        pure (vchTrue :: push8_le q :: push8_le r :: rest)
  | .OP_LESSTHAN64 => some ((if a < b then vchTrue else vchFalse) :: rest)
  | .OP_LESSTHANOREQUAL64 => some ((if a ≤ b then vchTrue else vchFalse) :: rest)
  | .OP_GREATERTHAN64 => some ((if a > b then vchTrue else vchFalse) :: rest)
  | .OP_GREATERTHANOREQUAL64 => some ((if a ≥ b then vchTrue else vchFalse) :: rest)

/-- `case OP_ADD64: ... case OP_GREATERTHANOREQUAL64:` of `EvalScript`. -/
def EvalArith64 (opcode : Arith64Opcode) (sigversion : SigVersion) (stack : List valtype) :
    Option (Except ScriptError (List valtype)) :=
  if IsPreTapscript sigversion then some (.error .SCRIPT_ERR_BAD_OPCODE)
  else
    match stack with
    | vchb :: vcha :: rest =>
        if vchb.length ≠ 8 ∨ vcha.length ≠ 8 then some (.error .SCRIPT_ERR_EXPECTED_8BYTES)
        else do
          let b ← read_le8_signed vchb
          let a ← read_le8_signed vcha
          Except.ok <$> arith64Switch opcode a b stack rest
    | _ => some (.error .SCRIPT_ERR_INVALID_STACK_OPERATION)

/-- `case OP_NEG64:` of `EvalScript`. -/
def EvalNeg64 (sigversion : SigVersion) (stack : List valtype) :
    Option (Except ScriptError (List valtype)) :=
  if IsPreTapscript sigversion then some (.error .SCRIPT_ERR_BAD_OPCODE)
  else
    match stack with
    | vcha :: rest =>
        if vcha.length ≠ 8 then some (.error .SCRIPT_ERR_EXPECTED_8BYTES)
        else do
          let a ← read_le8_signed vcha
          if a = INT64_MIN then pure (.ok (vchFalse :: stack))
          else do
            let negated ← CInt.neg 64 a
            pure (.ok (vchTrue :: push8_le negated :: rest))
    | [] => some (.error .SCRIPT_ERR_INVALID_STACK_OPERATION)

/-- `case OP_SCRIPTNUMTOLE64:` of `EvalScript`; the `scriptnum_error` the
constructor throws is caught at the end of `EvalScript`. -/
def EvalScriptNumToLE64 (sigversion : SigVersion) (fRequireMinimal : Bool) (stack : List valtype) :
    Option (Except ScriptError (List valtype)) :=
  if IsPreTapscript sigversion then some (.error .SCRIPT_ERR_BAD_OPCODE)
  else
    match stack with
    | top :: rest => do
        match ← CScriptNum.ofVch top fRequireMinimal CScriptNum.nDefaultMaxNumSize with
        | .error _ => pure (.error .SCRIPT_ERR_UNKNOWN_ERROR)
        | .ok num => pure (.ok (push8_le (CScriptNum.getint num) :: rest))
    | [] => some (.error .SCRIPT_ERR_INVALID_STACK_OPERATION)

/-- `case OP_LE64TOSCRIPTNUM:` of `EvalScript`. -/
def EvalLE64ToScriptNum (sigversion : SigVersion) (stack : List valtype) :
    Option (Except ScriptError (List valtype)) :=
  if IsPreTapscript sigversion then some (.error .SCRIPT_ERR_BAD_OPCODE)
  else
    match stack with
    | vchnum :: rest =>
        if vchnum.length ≠ 8 then some (.error .SCRIPT_ERR_EXPECTED_8BYTES)
        else do
          let num ← read_le8_signed vchnum
          let vchscript_num := CScriptNum.getvch num
          if vchscript_num.length > CScriptNum.nDefaultMaxNumSize then
            pure (.error .SCRIPT_ERR_ARITHMETIC64)
          else pure (.ok (vchscript_num :: rest))
    | [] => some (.error .SCRIPT_ERR_INVALID_STACK_OPERATION)

end Elements

namespace Elements

open Wire

theorem read_le8_signed_eq {vch : valtype} (eight : vch.length = 8) :
    read_le8_signed vch = some (CInt.ofUnsigned 64 (valueLE vch)) := by
  have bounded := valueLE_lt vch
  rw [eight] at bounded
  have width : (256 : Nat) ^ 8 = 2 ^ 64 := by rfl
  have minimum : CInt.toUnsigned 64 INT64_MIN = 2 ^ 63 := by rfl
  unfold read_le8_signed cast_signed64
  rw [List.take_of_length_le (by omega), minimum]
  dsimp only
  split
  · rename_i upper
    rw [CInt.ofUnsigned_of_lt (by omega), CInt.add, CInt.checked_of_inRange]
    · unfold CInt.ofUnsigned INT64_MIN CInt.min
      rw [if_neg (by omega), Option.some.injEq, Nat.cast_sub (by omega)]
      push_cast
      omega
    · unfold CInt.InRange INT64_MIN CInt.min
      omega
  · rfl

theorem inRange_read {vch : valtype} (eight : vch.length = 8) :
    CInt.InRange 64 (CInt.ofUnsigned 64 (valueLE vch)) := by
  have bounded := valueLE_lt vch
  rw [eight] at bounded
  exact CInt.inRange_ofUnsigned (by decide) bounded

theorem push8_le_read {vch : valtype} (eight : vch.length = 8) :
    push8_le (CInt.ofUnsigned 64 (valueLE vch)) = vch := by
  have bounded := valueLE_lt vch
  rw [eight] at bounded
  rw [push8_le, CInt.toUnsigned_ofUnsigned bounded, ← eight, writeLE_valueLE]

section Operands

variable {a b : Int}

theorem add64Overflows_eq (ra : CInt.InRange 64 a) (rb : CInt.InRange 64 b) :
    add64Overflows a b = some (decide ¬CInt.InRange 64 (a + b)) := by
  unfold CInt.InRange at ra rb
  unfold add64Overflows
  by_cases positive : 0 < a
  · -- only an overflow above is possible, tested against max - a
    have limit : CInt.sub 64 INT64_MAX a = some (INT64_MAX - a) :=
      CInt.checked_of_inRange (by unfold CInt.InRange INT64_MAX CInt.max; omega)
    rw [limit]
    simp only [positive, decide_true, CInt.andThen_true, Option.map_eq_map, Option.map_some,
      CInt.orElse_some, show decide (a < 0) = false by simp; omega, CInt.andThen_false]
    unfold CInt.InRange INT64_MAX CInt.max
    simp only [CInt.ite_some_true_some_false, Option.some.injEq, decide_eq_decide]
    omega
  · by_cases negative : a < 0
    · -- only an overflow below is possible, tested against min - a
      have limit : CInt.sub 64 INT64_MIN a = some (INT64_MIN - a) :=
        CInt.checked_of_inRange (by unfold CInt.InRange INT64_MIN CInt.min; omega)
      rw [limit]
      simp only [positive, negative, decide_true, decide_false, CInt.andThen_true, CInt.andThen_false,
        Option.map_eq_map, Option.map_some, CInt.orElse_some, Bool.false_eq_true, ↓reduceIte]
      unfold CInt.InRange INT64_MIN CInt.min
      simp only [Option.some.injEq, decide_eq_decide]
      omega
    · simp only [positive, negative, decide_false, CInt.andThen_false, CInt.orElse_some,
        Bool.false_eq_true, ↓reduceIte, Option.some.injEq]
      unfold CInt.InRange
      simp only [Bool.false_eq, decide_eq_false_iff_not, not_not]
      omega

theorem sub64Overflows_eq (ra : CInt.InRange 64 a) (rb : CInt.InRange 64 b) :
    sub64Overflows a b = some (decide ¬CInt.InRange 64 (a - b)) := by
  unfold CInt.InRange at ra rb
  unfold sub64Overflows
  by_cases positive : 0 < b
  · -- only an overflow below is possible, tested against min + b
    have limit : CInt.add 64 INT64_MIN b = some (INT64_MIN + b) :=
      CInt.checked_of_inRange (by unfold CInt.InRange INT64_MIN CInt.min; omega)
    rw [limit]
    simp only [positive, decide_true, CInt.andThen_true, Option.map_eq_map, Option.map_some,
      CInt.orElse_some, show decide (b < 0) = false by simp; omega, CInt.andThen_false]
    unfold CInt.InRange INT64_MIN CInt.min
    simp only [CInt.ite_some_true_some_false, Option.some.injEq, decide_eq_decide]
    omega
  · by_cases negative : b < 0
    · -- only an overflow above is possible, tested against max + b
      have limit : CInt.add 64 INT64_MAX b = some (INT64_MAX + b) :=
        CInt.checked_of_inRange (by unfold CInt.InRange INT64_MAX CInt.max; omega)
      rw [limit]
      simp only [positive, negative, decide_true, decide_false, CInt.andThen_true, CInt.andThen_false,
        Option.map_eq_map, Option.map_some, CInt.orElse_some, Bool.false_eq_true, ↓reduceIte]
      unfold CInt.InRange INT64_MAX CInt.max
      simp only [Option.some.injEq, decide_eq_decide]
      omega
    · simp only [positive, negative, decide_false, CInt.andThen_false, CInt.orElse_some,
        Bool.false_eq_true, ↓reduceIte, Option.some.injEq]
      unfold CInt.InRange
      simp only [Bool.false_eq, decide_eq_false_iff_not, not_not]
      omega

theorem mul64Overflows_eq (ra : CInt.InRange 64 a) (rb : CInt.InRange 64 b) :
    mul64Overflows a b = some (decide ¬CInt.InRange 64 (a * b)) := by
  have maxFits : CInt.InRange 64 INT64_MAX := CInt.max_inRange
  have minFits : CInt.InRange 64 INT64_MIN := CInt.min_inRange
  have maxNonneg : (0 : Int) ≤ INT64_MAX := by decide
  have minNonpos : INT64_MIN ≤ (0 : Int) := by decide
  have maxNotMin : INT64_MAX ≠ CInt.min 64 := by decide
  have minNotMinusOne : ∀ d : Int, 0 < d → ¬(INT64_MIN = CInt.min 64 ∧ d = -1) :=
    fun d positive notMin => by omega
  unfold mul64Overflows
  rcases lt_trichotomy a 0 with aNeg | aZero | aPos
  · rcases lt_trichotomy b 0 with bNeg | bZero | bPos
    · -- both negative: the product is positive, tested against max / a
      have limit := CInt.div_eq_some maxFits aNeg.ne (fun both => maxNotMin both.1)
      have test := CInt.lt_tdiv_iff_of_neg (x := b) maxNonneg aNeg
      have positive : 0 < b * a := Int.mul_pos_of_neg_of_neg bNeg aNeg
      simp only [aNeg, bNeg, limit, decide_true, Bool.and_true, Bool.and_false,
        show decide (0 < a) = false by simp; omega, show decide (0 < b) = false by simp; omega, gt_iff_lt, CInt.andThen_true, CInt.andThen_false, CInt.orElse_some,
        Bool.false_eq_true, ↓reduceIte, Option.map_eq_map, Option.map_some, Option.some.injEq,
        decide_eq_decide, test, mul_comm a b]
      unfold CInt.InRange INT64_MAX CInt.max
      omega
    · subst bZero
      simp [Bool.and_false, CInt.InRange]
    · -- a negative times a positive, tested against min / b
      have limit := CInt.div_eq_some minFits bPos.ne' (minNotMinusOne b bPos)
      have test := CInt.lt_tdiv_iff (x := a) minNonpos bPos
      have negative : a * b < 0 := Int.mul_neg_of_neg_of_pos aNeg bPos
      simp only [aNeg, bPos, limit, decide_true, Bool.and_true, Bool.and_false,
        show decide (0 < a) = false by simp; omega, show decide (b < 0) = false by simp; omega, gt_iff_lt, CInt.andThen_true, CInt.andThen_false, CInt.orElse_some,
        Bool.false_eq_true, ↓reduceIte, Option.map_eq_map, Option.map_some, Option.some.injEq,
        decide_eq_decide, test, CInt.ite_some_true_some_false]
      unfold CInt.InRange INT64_MIN CInt.min
      omega
  · subst aZero
    simp [CInt.InRange]
  · rcases lt_trichotomy b 0 with bNeg | bZero | bPos
    · -- a positive times a negative, tested against min / a
      have limit := CInt.div_eq_some minFits aPos.ne' (minNotMinusOne a aPos)
      have test := CInt.lt_tdiv_iff (x := b) minNonpos aPos
      have negative : b * a < 0 := Int.mul_neg_of_neg_of_pos bNeg aPos
      simp only [aPos, bNeg, limit, decide_true, Bool.and_true, Bool.and_false,
        show decide (a < 0) = false by simp; omega, show decide (0 < b) = false by simp; omega, gt_iff_lt, CInt.andThen_true, CInt.andThen_false, CInt.orElse_some,
        Bool.false_eq_true, ↓reduceIte, Option.map_eq_map, Option.map_some, Option.some.injEq,
        decide_eq_decide, test, CInt.ite_some_true_some_false, mul_comm a b]
      unfold CInt.InRange INT64_MIN CInt.min
      omega
    · subst bZero
      simp [CInt.InRange]
    · -- both positive: the product is positive, tested against max / b
      have limit := CInt.div_eq_some maxFits bPos.ne' (fun both => maxNotMin both.1)
      have test := CInt.tdiv_lt_iff (x := a) maxNonneg bPos
      have positive : 0 < a * b := Int.mul_pos aPos bPos
      simp only [aPos, bPos, limit, decide_true, Bool.and_true, Bool.and_false,
        show decide (a < 0) = false by simp; omega, show decide (b < 0) = false by simp; omega, gt_iff_lt, CInt.andThen_true, CInt.andThen_false, CInt.orElse_some,
        Option.map_eq_map, Option.map_some, Option.some.injEq,
        decide_eq_decide, test, CInt.ite_some_true_some_false]
      unfold CInt.InRange INT64_MAX CInt.max
      omega

theorem div64Euclid_spec (ra : CInt.InRange 64 a) (rb : CInt.InRange 64 b) (nonzero : b ≠ 0)
    (notMinByMinusOne : ¬(b = -1 ∧ a = INT64_MIN)) :
    ∃ q r, div64Euclid a b = some (q, r) ∧ a = q * b + r ∧ 0 ≤ r ∧ r < |b| := by
  have notMin : ¬(a = CInt.min 64 ∧ b = -1) := fun both => notMinByMinusOne ⟨both.2, both.1⟩
  have identity : a.tmod b + a.tdiv b * b = a := Int.tmod_add_tdiv_mul a b
  have bound := CInt.natAbs_tmod_lt (a := a) nonzero
  have shrinks : (a.tdiv b).natAbs = a.natAbs / b.natAbs := Int.natAbs_tdiv a b
  -- the remainder has the sign of the dividend
  have sign : (0 ≤ a → 0 ≤ a.tmod b) ∧ (a ≤ 0 → a.tmod b ≤ 0) := by
    refine ⟨Int.tmod_nonneg b, fun nonpos => ?_⟩
    have := Int.tmod_nonneg b (Int.neg_nonneg_of_nonpos nonpos)
    rw [Int.neg_tmod] at this
    omega
  unfold CInt.InRange at ra rb
  unfold div64Euclid
  rw [CInt.rem_eq_some ra nonzero notMin, CInt.div_eq_some ra nonzero notMin]
  simp only [Option.bind_eq_bind, Option.bind_some]
  by_cases below : a.tmod b < 0 ∧ b > 0
  · -- a negative remainder and a divisor of at least two: one more b into the remainder
    have atLeastTwo : 2 ≤ b.natAbs := by
      by_contra small
      have one : b = 1 := by omega
      rw [one, Int.tmod_one] at below
      omega
    have halves : a.natAbs / b.natAbs ≤ a.natAbs / 2 := Nat.div_le_div_left atLeastTwo (by decide)
    have r' : CInt.add 64 (a.tmod b) b = some (a.tmod b + b) := by
      apply CInt.checked_of_inRange
      unfold CInt.InRange
      omega
    have q' : CInt.sub 64 (a.tdiv b) 1 = some (a.tdiv b - 1) := by
      apply CInt.checked_of_inRange
      unfold CInt.InRange
      omega
    refine ⟨a.tdiv b - 1, a.tmod b + b, by rw [if_pos below, r', q']; rfl, by linarith, by omega, ?_⟩
    rw [abs_of_pos below.2]
    omega
  · by_cases above : a.tmod b < 0 ∧ b < 0
    · -- a negative remainder and a divisor of at most minus two: one less b from it
      have atLeastTwo : 2 ≤ b.natAbs := by
        by_contra small
        have minusOne : b = -1 := by omega
        rw [minusOne, Int.tmod_neg, Int.tmod_one] at above
        omega
      have halves : a.natAbs / b.natAbs ≤ a.natAbs / 2 := Nat.div_le_div_left atLeastTwo (by decide)
      have r' : CInt.sub 64 (a.tmod b) b = some (a.tmod b - b) := by
        apply CInt.checked_of_inRange
        unfold CInt.InRange
        omega
      have q' : CInt.add 64 (a.tdiv b) 1 = some (a.tdiv b + 1) := by
        apply CInt.checked_of_inRange
        unfold CInt.InRange
        omega
      refine ⟨a.tdiv b + 1, a.tmod b - b, by rw [if_neg below, if_pos above, r', q']; rfl, by linarith,
        by omega, ?_⟩
      rw [abs_of_neg above.2]
      omega
    · -- the truncating pair is already Euclidean
      have nonneg : 0 ≤ a.tmod b := by omega
      refine ⟨a.tdiv b, a.tmod b, by rw [if_neg below, if_neg above]; rfl, by linarith, nonneg, ?_⟩
      rcases Int.lt_or_gt_of_ne nonzero with negative | positive
      · rw [abs_of_neg negative]
        omega
      · rw [abs_of_pos positive]
        omega

theorem overflowCase_eq {test : Option Bool} {operation : Option Int} {result : Int}
    {stack rest : List valtype} (decided : test = some (decide ¬CInt.InRange 64 result))
    (checked : operation = CInt.checked 64 result) :
    (do
      if ← test then pure (vchFalse :: stack)
      else do
        let value ← operation
        pure (vchTrue :: push8_le value :: rest)) =
      some (if CInt.InRange 64 result then vchTrue :: push8_le result :: rest else vchFalse :: stack) := by
  rw [decided, checked]
  by_cases fits : CInt.InRange 64 result
  · simp [fits, CInt.checked_of_inRange fits]
  · simp [fits]

variable {stack rest : List valtype}

theorem arith64Switch_ADD64 (ra : CInt.InRange 64 a) (rb : CInt.InRange 64 b) :
    arith64Switch .OP_ADD64 a b stack rest =
      some (if CInt.InRange 64 (a + b) then vchTrue :: push8_le (a + b) :: rest else vchFalse :: stack) :=
  overflowCase_eq (add64Overflows_eq ra rb) rfl

theorem arith64Switch_SUB64 (ra : CInt.InRange 64 a) (rb : CInt.InRange 64 b) :
    arith64Switch .OP_SUB64 a b stack rest =
      some (if CInt.InRange 64 (a - b) then vchTrue :: push8_le (a - b) :: rest else vchFalse :: stack) :=
  overflowCase_eq (sub64Overflows_eq ra rb) rfl

theorem arith64Switch_MUL64 (ra : CInt.InRange 64 a) (rb : CInt.InRange 64 b) :
    arith64Switch .OP_MUL64 a b stack rest =
      some (if CInt.InRange 64 (a * b) then vchTrue :: push8_le (a * b) :: rest else vchFalse :: stack) :=
  overflowCase_eq (mul64Overflows_eq ra rb) rfl

theorem arith64Switch_DIV64 (ra : CInt.InRange 64 a) (rb : CInt.InRange 64 b) :
    (b = 0 ∨ (b = -1 ∧ a = INT64_MIN)) ∧ arith64Switch .OP_DIV64 a b stack rest = some (vchFalse :: stack) ∨
      ∃ q r, a = q * b + r ∧ 0 ≤ r ∧ r < |b| ∧
        arith64Switch .OP_DIV64 a b stack rest = some (vchTrue :: push8_le q :: push8_le r :: rest) := by
  by_cases refused : b = 0 ∨ (b = -1 ∧ a = INT64_MIN)
  · exact .inl ⟨refused, if_pos refused⟩
  · obtain ⟨q, r, pair, euclid⟩ := div64Euclid_spec ra rb (fun zero => refused (.inl zero))
      (fun minByMinusOne => refused (.inr minByMinusOne))
    refine .inr ⟨q, r, euclid.1, euclid.2.1, euclid.2.2, ?_⟩
    rw [arith64Switch, if_neg refused, pair]
    rfl

theorem arith64Switch_isSome (opcode : Arith64Opcode) (ra : CInt.InRange 64 a) (rb : CInt.InRange 64 b) :
    (arith64Switch opcode a b stack rest).isSome := by
  cases opcode with
  | OP_ADD64 => rw [arith64Switch_ADD64 ra rb]; rfl
  | OP_SUB64 => rw [arith64Switch_SUB64 ra rb]; rfl
  | OP_MUL64 => rw [arith64Switch_MUL64 ra rb]; rfl
  | OP_DIV64 =>
      rcases @arith64Switch_DIV64 _ _ stack rest ra rb with ⟨-, refused⟩ | ⟨q, r, -, -, -, pushed⟩
      · rw [refused]; rfl
      · rw [pushed]; rfl
  | OP_LESSTHAN64 | OP_LESSTHANOREQUAL64 | OP_GREATERTHAN64 | OP_GREATERTHANOREQUAL64 => rfl

end Operands

section Steps

variable {sigversion : SigVersion} {vcha vchb : valtype} {rest : List valtype}

theorem EvalArith64_operands (opcode : Arith64Opcode) (tapscript : ¬IsPreTapscript sigversion)
    (la : vcha.length = 8) (lb : vchb.length = 8) :
    EvalArith64 opcode sigversion (vchb :: vcha :: rest) =
      Except.ok <$> arith64Switch opcode (CInt.ofUnsigned 64 (valueLE vcha))
        (CInt.ofUnsigned 64 (valueLE vchb)) (vchb :: vcha :: rest) rest := by
  simp only [EvalArith64, if_neg tapscript, la, lb, ne_eq, not_true_eq_false, or_self, ↓reduceIte,
    read_le8_signed_eq la, read_le8_signed_eq lb]
  rfl

theorem EvalArith64_isSome (opcode : Arith64Opcode) (sigversion : SigVersion) (stack : List valtype) :
    (EvalArith64 opcode sigversion stack).isSome := by
  by_cases pre : IsPreTapscript sigversion
  · simp [EvalArith64, pre]
  match stack with
  | vchb :: vcha :: rest =>
      by_cases eight : vchb.length = 8 ∧ vcha.length = 8
      · rw [EvalArith64_operands opcode pre eight.2 eight.1]
        have defined : (arith64Switch opcode _ _ (vchb :: vcha :: rest) rest).isSome :=
          arith64Switch_isSome opcode (inRange_read eight.2) (inRange_read eight.1)
        revert defined
        cases arith64Switch opcode _ _ (vchb :: vcha :: rest) rest <;> simp
      · have : vchb.length ≠ 8 ∨ vcha.length ≠ 8 := by omega
        simp [EvalArith64, pre, this]
  | [] => simp [EvalArith64, pre]
  | [_] => simp [EvalArith64, pre]

theorem EvalNeg64_operand (tapscript : ¬IsPreTapscript sigversion) (la : vcha.length = 8) :
    EvalNeg64 sigversion (vcha :: rest) =
      some (.ok (if CInt.ofUnsigned 64 (valueLE vcha) = INT64_MIN then vchFalse :: vcha :: rest
        else vchTrue :: push8_le (-CInt.ofUnsigned 64 (valueLE vcha)) :: rest)) := by
  have fits := inRange_read la
  simp only [EvalNeg64, if_neg tapscript, la, ne_eq, not_true_eq_false, ↓reduceIte,
    read_le8_signed_eq la, Option.bind_eq_bind, Option.bind_some]
  split
  · rfl
  · rename_i notMin
    have negated : CInt.neg 64 (CInt.ofUnsigned 64 (valueLE vcha)) =
        some (-CInt.ofUnsigned 64 (valueLE vcha)) := by
      apply CInt.checked_of_inRange
      unfold CInt.InRange at fits ⊢
      unfold INT64_MIN CInt.min at notMin
      omega
    rw [negated]
    rfl

theorem EvalNeg64_isSome (sigversion : SigVersion) (stack : List valtype) :
    (EvalNeg64 sigversion stack).isSome := by
  by_cases pre : IsPreTapscript sigversion
  · simp [EvalNeg64, pre]
  match stack with
  | vcha :: rest =>
      by_cases eight : vcha.length = 8
      · rw [EvalNeg64_operand pre eight]
        rfl
      · simp [EvalNeg64, pre, eight]
  | [] => simp [EvalNeg64, pre]

end Steps

section Conversions

variable {sigversion : SigVersion} {rest : List valtype}

@[simp] theorem length_push8_le (v : Int) : (push8_le v).length = 8 := writeLE_length 8 _

theorem value_push8_le {v : Int} (fits : CInt.InRange 64 v) :
    CInt.ofUnsigned 64 (valueLE (push8_le v)) = v := by
  rw [push8_le, valueLE_writeLE 8 _ (CInt.toUnsigned_lt v), CInt.ofUnsigned_toUnsigned (by decide) fits]

theorem EvalScriptNumToLE64_read {fRequireMinimal : Bool} {top : valtype} {num : Int}
    (tapscript : ¬IsPreTapscript sigversion)
    (decoded : CScriptNum.ofVch top fRequireMinimal CScriptNum.nDefaultMaxNumSize = some (.ok num)) :
    EvalScriptNumToLE64 sigversion fRequireMinimal (top :: rest) =
      some (.ok (push8_le (CScriptNum.getint num) :: rest)) := by
  simp only [EvalScriptNumToLE64, if_neg tapscript, decoded, Option.bind_eq_bind, Option.bind_some]
  rfl

theorem EvalLE64ToScriptNum_operand {vchnum : valtype} (tapscript : ¬IsPreTapscript sigversion)
    (eight : vchnum.length = 8) :
    EvalLE64ToScriptNum sigversion (vchnum :: rest) =
      some (if (CScriptNum.serialize (CInt.ofUnsigned 64 (valueLE vchnum))).length >
          CScriptNum.nDefaultMaxNumSize then .error .SCRIPT_ERR_ARITHMETIC64
        else .ok (CScriptNum.serialize (CInt.ofUnsigned 64 (valueLE vchnum)) :: rest)) := by
  simp only [EvalLE64ToScriptNum, if_neg tapscript, eight, ne_eq, not_true_eq_false, ↓reduceIte,
    read_le8_signed_eq eight, Option.bind_eq_bind, Option.bind_some]
  split
  · rename_i long
    rw [CScriptNum.getvch] at long
    rw [if_pos long]
    rfl
  · rename_i long
    rw [CScriptNum.getvch] at long
    rw [if_neg long]
    rfl

theorem inRange_of_short {vch : valtype} {num : Int} (short : vch.length ≤ CScriptNum.nDefaultMaxNumSize)
    (read : CScriptNum.set_vch vch = some num) : CInt.InRange 32 num := by
  have bound := CScriptNum.natAbs_lt_of_set_vch (by unfold CScriptNum.nDefaultMaxNumSize at short; omega) read
  have smaller : 2 ^ (8 * vch.length - 1) ≤ 2 ^ 31 :=
    Nat.pow_le_pow_right (by decide) (by unfold CScriptNum.nDefaultMaxNumSize at short; omega)
  unfold CInt.InRange
  omega

theorem scriptNumToLE64_then_back (fRequireMinimal : Bool) {v : valtype} {num : Int}
    (decoded : CScriptNum.ofVch v true CScriptNum.nDefaultMaxNumSize = some (.ok num)) :
    ∃ mid, EvalScriptNumToLE64 .TAPSCRIPT fRequireMinimal (v :: rest) = some (.ok mid) ∧
      EvalLE64ToScriptNum .TAPSCRIPT mid = some (.ok (v :: rest)) := by
  have tapscript : ¬IsPreTapscript .TAPSCRIPT := by simp [IsPreTapscript]
  obtain ⟨short, -, read⟩ := CScriptNum.ofVch_eq_ok decoded
  have small := inRange_of_short short read
  have fits : CInt.InRange 64 num := by
    unfold CInt.InRange at small ⊢
    omega
  refine ⟨push8_le num :: rest, ?_, ?_⟩
  · rw [EvalScriptNumToLE64_read tapscript (CScriptNum.ofVch_of_ofVch_true fRequireMinimal decoded),
      CScriptNum.getint_of_inRange small]
  · have written := CScriptNum.serialize_of_ofVch
      (by unfold CScriptNum.nDefaultMaxNumSize at short; omega) decoded
    rw [EvalLE64ToScriptNum_operand tapscript (length_push8_le num), value_push8_le fits, written,
      if_neg (by omega)]

theorem le64ToScriptNum_then_back (fRequireMinimal : Bool) {vch : valtype} {mid : List valtype}
    (converted : EvalLE64ToScriptNum .TAPSCRIPT (vch :: rest) = some (.ok mid)) :
    EvalScriptNumToLE64 .TAPSCRIPT fRequireMinimal mid = some (.ok (vch :: rest)) := by
  have tapscript : ¬IsPreTapscript .TAPSCRIPT := by simp [IsPreTapscript]
  have eight : vch.length = 8 := by
    by_contra wrong
    simp [EvalLE64ToScriptNum, IsPreTapscript, wrong] at converted
  rw [EvalLE64ToScriptNum_operand tapscript eight] at converted
  have fits := inRange_read eight
  set num := CInt.ofUnsigned 64 (valueLE vch)
  split at converted
  · cases converted
  · rename_i short
    rw [Option.some.injEq, Except.ok.injEq] at converted
    subst converted
    -- at most four bytes: the magnitude is below 2 ^ 32, so not the minimum
    have magnitude := Wire.valueLE_lt (bytesLE num.natAbs)
    rw [valueLE_bytesLE] at magnitude
    have fewer := CScriptNum.length_bytesLE_le_length_serialize fits
    have bounded : num.natAbs < 256 ^ 4 :=
      lt_of_lt_of_le magnitude (Nat.pow_le_pow_right (show 256 > 0 by decide)
        (by unfold CScriptNum.nDefaultMaxNumSize at short; omega))
    have notMin : num ≠ CInt.min 64 := by
      intro isMin
      rw [isMin] at bounded
      exact absurd bounded (by decide)
    have room : (CScriptNum.serialize num).length ≤ CScriptNum.nDefaultMaxNumSize := by omega
    obtain ⟨-, -, read⟩ := CScriptNum.serialize_spec fits notMin
    rw [EvalScriptNumToLE64_read tapscript (CScriptNum.ofVch_serialize fits notMin room),
      CScriptNum.getint_of_inRange (inRange_of_short room read), push8_le_read eight]

end Conversions

theorem arith64_exact (vcha vchb : valtype) (rest : List valtype) (la : vcha.length = 8)
    (lb : vchb.length = 8) :
    let a := CInt.ofUnsigned 64 (valueLE vcha)
    let b := CInt.ofUnsigned 64 (valueLE vchb)
    EvalArith64 .OP_ADD64 .TAPSCRIPT (vchb :: vcha :: rest) =
        some (.ok (if CInt.InRange 64 (a + b) then vchTrue :: push8_le (a + b) :: rest
          else vchFalse :: vchb :: vcha :: rest)) ∧
      EvalArith64 .OP_SUB64 .TAPSCRIPT (vchb :: vcha :: rest) =
        some (.ok (if CInt.InRange 64 (a - b) then vchTrue :: push8_le (a - b) :: rest
          else vchFalse :: vchb :: vcha :: rest)) ∧
      EvalArith64 .OP_MUL64 .TAPSCRIPT (vchb :: vcha :: rest) =
        some (.ok (if CInt.InRange 64 (a * b) then vchTrue :: push8_le (a * b) :: rest
          else vchFalse :: vchb :: vcha :: rest)) ∧
      ((b = 0 ∨ (b = -1 ∧ a = -2 ^ 63)) ∧
          EvalArith64 .OP_DIV64 .TAPSCRIPT (vchb :: vcha :: rest) =
            some (.ok (vchFalse :: vchb :: vcha :: rest)) ∨
        ¬(b = 0 ∨ (b = -1 ∧ a = -2 ^ 63)) ∧ ∃ q r, a = q * b + r ∧ 0 ≤ r ∧ r < |b| ∧
          EvalArith64 .OP_DIV64 .TAPSCRIPT (vchb :: vcha :: rest) =
            some (.ok (vchTrue :: push8_le q :: push8_le r :: rest))) ∧
      EvalNeg64 .TAPSCRIPT (vcha :: rest) =
        some (.ok (if a = -2 ^ 63 then vchFalse :: vcha :: rest else vchTrue :: push8_le (-a) :: rest)) ∧
      (∀ opcode sigversion stack, (EvalArith64 opcode sigversion stack).isSome) ∧
      ∀ sigversion stack, (EvalNeg64 sigversion stack).isSome := by
  intro a b
  have tapscript : ¬IsPreTapscript .TAPSCRIPT := by simp [IsPreTapscript]
  have ra : CInt.InRange 64 a := inRange_read la
  have rb : CInt.InRange 64 b := inRange_read lb
  have minimum : INT64_MIN = -2 ^ 63 := by decide
  refine ⟨?_, ?_, ?_, ?_, ?_, EvalArith64_isSome, EvalNeg64_isSome⟩
  · rw [EvalArith64_operands _ tapscript la lb, arith64Switch_ADD64 ra rb]
    rfl
  · rw [EvalArith64_operands _ tapscript la lb, arith64Switch_SUB64 ra rb]
    rfl
  · rw [EvalArith64_operands _ tapscript la lb, arith64Switch_MUL64 ra rb]
    rfl
  · rw [EvalArith64_operands _ tapscript la lb, ← minimum]
    rcases @arith64Switch_DIV64 _ _ (vchb :: vcha :: rest) rest ra rb with
      ⟨refused, pushed⟩ | ⟨q, r, euclid, nonneg, below, pushed⟩
    · exact .inl ⟨refused, by rw [pushed]; rfl⟩
    · -- the switch pushes the pair only when the operands are not refused
      refine .inr ⟨fun refused => ?_, q, r, euclid, nonneg, below, by rw [pushed]; rfl⟩
      have stays : arith64Switch .OP_DIV64 a b (vchb :: vcha :: rest) rest =
          some (vchFalse :: vchb :: vcha :: rest) := if_pos refused
      rw [stays] at pushed
      simp [vchFalse, vchTrue] at pushed
  · rw [EvalNeg64_operand tapscript la, minimum]

theorem arith64_exact_two_plus_three :
    EvalArith64 .OP_ADD64 .TAPSCRIPT [writeLE 8 3, writeLE 8 2] = some (.ok [vchTrue, push8_le 5]) := by
  have exact := (arith64_exact (writeLE 8 2) (writeLE 8 3) [] (writeLE_length 8 2) (writeLE_length 8 3)).1
  have two : CInt.ofUnsigned 64 (valueLE (writeLE 8 2)) = 2 := by decide
  have three : CInt.ofUnsigned 64 (valueLE (writeLE 8 3)) = 3 := by decide
  have fits : CInt.InRange 64 (2 + 3) := by decide
  simp only [two, three, fits, ↓reduceIte] at exact
  exact exact

theorem scriptNum_roundTrip :
    (∀ n : Int, CInt.InRange 64 n → n ≠ -2 ^ 63 →
      CScriptNum.ofVch (CScriptNum.serialize n) true 9 = some (.ok n)) ∧
    (∀ (v : Bytes) (n : Int), v.length ≤ 8 → CScriptNum.ofVch v true 9 = some (.ok n) →
      CScriptNum.serialize n = v) ∧
    (∀ (fRequireMinimal : Bool) (v : valtype) (n : Int) (rest : List valtype),
      CScriptNum.ofVch v true CScriptNum.nDefaultMaxNumSize = some (.ok n) →
      ∃ mid, EvalScriptNumToLE64 .TAPSCRIPT fRequireMinimal (v :: rest) = some (.ok mid) ∧
        EvalLE64ToScriptNum .TAPSCRIPT mid = some (.ok (v :: rest))) ∧
    (∀ (fRequireMinimal : Bool) (vch : valtype) (rest mid : List valtype),
      EvalLE64ToScriptNum .TAPSCRIPT (vch :: rest) = some (.ok mid) →
      EvalScriptNumToLE64 .TAPSCRIPT fRequireMinimal mid = some (.ok (vch :: rest))) := by
  refine ⟨fun n fits notMin => ?_, fun v n short decoded => CScriptNum.serialize_of_ofVch short decoded,
    fun fRequireMinimal _ _ _ decoded => scriptNumToLE64_then_back fRequireMinimal decoded,
    fun fRequireMinimal _ _ _ converted => le64ToScriptNum_then_back fRequireMinimal converted⟩
  have notMin' : n ≠ CInt.min 64 := fun isMin => notMin (by rw [isMin]; decide)
  obtain ⟨short, -, -⟩ := CScriptNum.serialize_spec fits notMin'
  exact CScriptNum.ofVch_serialize fits notMin' (by omega)

end Elements
