import Mathlib

/-! Signed integers of C and C++ of a fixed width, as mathematical integers.

An arithmetic operation whose exact result does not fit the signed type is
undefined behaviour. The operations below return `none` there, so that a
computation built from them in `Option` is defined exactly when it returns
`some`. Division and remainder truncate toward zero, as C++11 fixes them.
Conversions between a signed type and the unsigned type of the same width are
two's complement. -/

namespace CInt

section Operations

variable (bits : Nat)

/-- The values of the signed type of `bits` bits. -/
def InRange (x : Int) : Prop := -2 ^ (bits - 1) ≤ x ∧ x < 2 ^ (bits - 1)

instance (x : Int) : Decidable (InRange bits x) := inferInstanceAs (Decidable (_ ∧ _))

def min : Int := -2 ^ (bits - 1)

def max : Int := 2 ^ (bits - 1) - 1

def checked (x : Int) : Option Int := if InRange bits x then some x else none

def add (a b : Int) : Option Int := checked bits (a + b)

def sub (a b : Int) : Option Int := checked bits (a - b)

def mul (a b : Int) : Option Int := checked bits (a * b)

def neg (a : Int) : Option Int := checked bits (-a)

/-- `a / b`: undefined for a zero divisor and for a quotient that does not fit. -/
def div (a b : Int) : Option Int := if b = 0 then none else checked bits (a.tdiv b)

/-- `a % b`: defined exactly when `a / b` is. -/
def rem (a b : Int) : Option Int := (div bits a b).map fun _ => a.tmod b

/-- `p && q`, where evaluating `q` may be undefined: it is evaluated only when `p` holds. -/
def andThen (p : Bool) (q : Option Bool) : Option Bool := if p then q else some false

/-- `p || q`, where `q` is evaluated only when `p` fails. -/
def orElse (p q : Option Bool) : Option Bool := p.bind fun holds => if holds then some true else q

def toUnsigned (x : Int) : Nat := (x % 2 ^ bits).toNat

def ofUnsigned (u : Nat) : Int := if u < 2 ^ (bits - 1) then u else u - 2 ^ bits

end Operations

variable {bits : Nat} {a b x y : Int}

@[simp] theorem checked_eq_some_iff : checked bits x = some y ↔ InRange bits x ∧ x = y := by
  unfold checked
  split <;> simp_all

theorem checked_of_inRange (fits : InRange bits x) : checked bits x = some x := if_pos fits

theorem inRange_natCast {m : Nat} (small : m < 2 ^ (bits - 1)) : InRange bits m := by
  have nonneg : (0 : Int) ≤ 2 ^ (bits - 1) := by positivity
  exact ⟨by omega, by exact_mod_cast small⟩

theorem mul_natCast {a b : Nat} (small : a * b < 2 ^ (bits - 1)) :
    mul bits (a : Int) (b : Int) = some ((a : Int) * b) := by
  rw [mul, ← Int.natCast_mul]
  exact checked_of_inRange (inRange_natCast small)

theorem sub_natCast {a b : Nat} (le : b ≤ a) (small : a - b < 2 ^ (bits - 1)) :
    sub bits (a : Int) (b : Int) = some ((a - b : Nat) : Int) := by
  rw [sub, ← Int.ofNat_sub le]
  exact checked_of_inRange (inRange_natCast small)

@[simp] theorem checked_eq_none_iff : checked bits x = none ↔ ¬InRange bits x := by
  unfold checked
  split <;> simp_all

theorem min_inRange : InRange bits (min bits) := by
  unfold InRange min
  have : (0 : Int) < 2 ^ (bits - 1) := by positivity
  omega

theorem max_inRange : InRange bits (max bits) := by
  unfold InRange max
  have : (0 : Int) < 2 ^ (bits - 1) := by positivity
  omega

theorem inRange_tdiv (dividend : InRange bits a) (nonzero : b ≠ 0)
    (notMinByMinusOne : ¬(a = min bits ∧ b = -1)) : InRange bits (a.tdiv b) := by
  unfold InRange min at *
  have shrinks : (a.tdiv b).natAbs ≤ a.natAbs := by
    rw [Int.natAbs_tdiv]
    exact Nat.div_le_self _ _
  rcases Int.lt_or_gt_of_ne nonzero with negative | positive
  · by_cases minusOne : b = -1
    · subst minusOne
      rw [Int.tdiv_neg, Int.tdiv_one]
      omega
    · -- a divisor of absolute value at least two halves the dividend
      have halves : (a.tdiv b).natAbs ≤ a.natAbs / 2 := by
        rw [Int.natAbs_tdiv]
        exact Nat.div_le_div_left (by omega) (by decide)
      omega
  · -- a positive divisor keeps the quotient between zero and the dividend
    rcases Int.le_total 0 a with nonneg | nonpos
    · have := Int.tdiv_nonneg nonneg positive.le
      omega
    · have flipped : a.tdiv b = -((-a).tdiv b) := by rw [Int.neg_tdiv, Int.neg_neg]
      have := Int.tdiv_nonneg (Int.neg_nonneg_of_nonpos nonpos) positive.le
      omega

theorem div_eq_some (dividend : InRange bits a) (nonzero : b ≠ 0)
    (notMinByMinusOne : ¬(a = min bits ∧ b = -1)) : div bits a b = some (a.tdiv b) := by
  rw [div, if_neg nonzero, checked_of_inRange (inRange_tdiv dividend nonzero notMinByMinusOne)]

theorem rem_eq_some (dividend : InRange bits a) (nonzero : b ≠ 0)
    (notMinByMinusOne : ¬(a = min bits ∧ b = -1)) : rem bits a b = some (a.tmod b) := by
  rw [rem, div_eq_some dividend nonzero notMinByMinusOne]
  rfl

theorem natAbs_tmod_lt (nonzero : b ≠ 0) : (a.tmod b).natAbs < b.natAbs := by
  rw [Int.natAbs_tmod]
  exact Nat.mod_lt _ (by omega)

theorem tdiv_lt_iff {m d : Int} (numerator : 0 ≤ m) (divisor : 0 < d) :
    m.tdiv d < x ↔ m < x * d := by
  rw [Int.tdiv_eq_ediv_of_nonneg numerator]
  exact Int.ediv_lt_iff_lt_mul divisor

theorem lt_tdiv_iff {m d : Int} (numerator : m ≤ 0) (divisor : 0 < d) :
    x < m.tdiv d ↔ x * d < m := by
  have flipped : m.tdiv d = -((-m).tdiv d) := by rw [Int.neg_tdiv, Int.neg_neg]
  rw [flipped, lt_neg, tdiv_lt_iff (by omega) divisor]
  constructor <;> intro h <;> linarith

theorem lt_tdiv_iff_of_neg {m d : Int} (numerator : 0 ≤ m) (divisor : d < 0) :
    x < m.tdiv d ↔ m < x * d := by
  rw [show d = -(-d) by ring, Int.tdiv_neg, lt_neg, tdiv_lt_iff numerator (by omega)]
  constructor <;> intro h <;> linarith

@[simp] theorem andThen_false (q : Option Bool) : andThen false q = some false := rfl

@[simp] theorem andThen_true (q : Option Bool) : andThen true q = q := rfl

@[simp] theorem orElse_some (p : Bool) (q : Option Bool) :
    orElse (some p) q = if p then some true else q := rfl

@[simp] theorem ite_some_true_some_false (p : Bool) : (if p then some true else some false) = some p := by
  cases p <;> rfl

theorem ofUnsigned_of_lt {u : Nat} (small : u < 2 ^ (bits - 1)) : ofUnsigned bits u = u := if_pos small

theorem toUnsigned_lt (x : Int) : toUnsigned bits x < 2 ^ bits := by
  unfold toUnsigned
  have cast : ((2 ^ bits : Nat) : Int) = 2 ^ bits := by push_cast; rfl
  have positive : (0 : Int) < 2 ^ bits := by positivity
  have := Int.emod_lt_of_pos x positive
  have := Int.emod_nonneg x positive.ne'
  omega

theorem pow_eq_two_mul (width : 0 < bits) : (2 : Int) ^ bits = 2 * 2 ^ (bits - 1) := by
  rw [← pow_succ']
  congr 1
  omega

theorem inRange_ofUnsigned (width : 0 < bits) {u : Nat} (fits : u < 2 ^ bits) :
    InRange bits (ofUnsigned bits u) := by
  have double := pow_eq_two_mul width
  have cast : ((2 ^ bits : Nat) : Int) = 2 ^ bits := by push_cast; rfl
  have cast' : ((2 ^ (bits - 1) : Nat) : Int) = 2 ^ (bits - 1) := by push_cast; rfl
  unfold InRange ofUnsigned
  split <;> omega

theorem ofUnsigned_toUnsigned (width : 0 < bits) (fits : InRange bits x) :
    ofUnsigned bits (toUnsigned bits x) = x := by
  have double := pow_eq_two_mul width
  have cast' : ((2 ^ (bits - 1) : Nat) : Int) = 2 ^ (bits - 1) := by push_cast; rfl
  unfold InRange at fits
  unfold ofUnsigned toUnsigned
  rcases Int.lt_or_le x 0 with negative | nonneg
  · have : x % 2 ^ bits = x + 2 ^ bits := by
      rw [← Int.add_emod_right, Int.emod_eq_of_lt (by omega) (by omega)]
    rw [this]
    split <;> omega
  · have : x % 2 ^ bits = x := Int.emod_eq_of_lt nonneg (by omega)
    rw [this]
    split <;> omega

theorem toUnsigned_ofUnsigned {u : Nat} (fits : u < 2 ^ bits) :
    toUnsigned bits (ofUnsigned bits u) = u := by
  have cast : ((2 ^ bits : Nat) : Int) = 2 ^ bits := by push_cast; rfl
  unfold toUnsigned ofUnsigned
  split
  · rw [Int.emod_eq_of_lt (by omega) (by omega)]
    rfl
  · rw [Int.sub_emod_right, Int.emod_eq_of_lt (by omega) (by omega)]
    rfl

end CInt
