import Mathlib

/-! Decimal numerals as lists of characters: the digits `'0'`..`'9'`, the numeral of a number
(most significant digit first, no leading zero), one padded with zeros to a width, and the number
a string of digits stands for. -/

namespace Decimal

def IsDigit (c : Char) : Bool := '0' ≤ c && c ≤ '9'

/-- The digit character of `d < 10`. -/
def digitChar (d : Nat) : Char := Char.ofNat (d + 48)

/-- The value of a digit character, `c - '0'`. -/
def digitValue (c : Char) : Nat := c.toNat - 48

/-- The numeral of `n`, as `%d` prints a non-negative number. -/
def decDigits (n : Nat) : List Char :=
  if n < 10 then [digitChar n] else decDigits (n / 10) ++ [digitChar (n % 10)]
termination_by n
decreasing_by exact Nat.div_lt_self (by omega) (by omega)

/-- The numeral of `n` with zeros in front up to `width` characters, as `%0<width>d` prints it. -/
def zeroPadded (width n : Nat) : List Char :=
  List.replicate (width - (decDigits n).length) '0' ++ decDigits n

def value (cs : List Char) : Nat := cs.foldl (fun acc c => acc * 10 + digitValue c) 0

theorem IsDigit_digitChar {d : Nat} (small : d < 10) : IsDigit (digitChar d) = true := by
  interval_cases d <;> decide

theorem digitValue_digitChar {d : Nat} (small : d < 10) : digitValue (digitChar d) = d := by
  interval_cases d <;> decide

theorem toNat_of_IsDigit {c : Char} (digit : IsDigit c = true) : 48 ≤ c.toNat ∧ c.toNat ≤ 57 := by
  simp only [IsDigit, Bool.and_eq_true, decide_eq_true_eq, Char.le_def] at digit
  have low : ('0' : Char).val.toNat = 48 := rfl
  have high : ('9' : Char).val.toNat = 57 := rfl
  rw [UInt32.le_iff_toNat_le, low, UInt32.le_iff_toNat_le, high] at digit
  exact digit

theorem digitValue_lt {c : Char} (digit : IsDigit c = true) : digitValue c < 10 := by
  have range := toNat_of_IsDigit digit
  unfold digitValue
  omega

theorem ne_of_IsDigit {c : Char} (digit : IsDigit c = true) {x : Char} (outside : x.toNat < 48 ∨ 57 < x.toNat) :
    c ≠ x := by
  have range := toNat_of_IsDigit digit
  intro same
  subst same
  omega

theorem zero_digitValue : digitValue '0' = 0 := rfl

@[simp] theorem value_nil : value [] = 0 := rfl

theorem value_concat (cs : List Char) (c : Char) : value (cs ++ [c]) = value cs * 10 + digitValue c := by
  simp only [value, List.foldl_append, List.foldl_cons, List.foldl_nil]

theorem value_append (cs ds : List Char) : value (cs ++ ds) = value cs * 10 ^ ds.length + value ds := by
  induction ds using List.reverseRecOn with
  | nil => simp
  | append_singleton ds d ih =>
      rw [← List.append_assoc, value_concat, ih, value_concat, List.length_append, List.length_singleton,
        pow_succ]
      ring

theorem value_replicate_zero (k : Nat) : value (List.replicate k '0') = 0 := by
  induction k with
  | zero => rfl
  | succ k ih => rw [List.replicate_succ', value_concat, ih, zero_digitValue]

theorem value_cons (c : Char) (cs : List Char) : value (c :: cs) = digitValue c * 10 ^ cs.length + value cs := by
  rw [← List.singleton_append, value_append, ← List.nil_append [c], value_concat, value_nil, Nat.zero_mul,
    Nat.zero_add]

theorem value_append_zeros (cs : List Char) (k : Nat) :
    value (cs ++ List.replicate k '0') = value cs * 10 ^ k := by
  rw [value_append, value_replicate_zero, List.length_replicate, Nat.add_zero]

theorem value_zeros_append (k : Nat) (cs : List Char) : value (List.replicate k '0' ++ cs) = value cs := by
  rw [value_append, value_replicate_zero, Nat.zero_mul, Nat.zero_add]

theorem value_lt {cs : List Char} (digits : ∀ c ∈ cs, IsDigit c = true) : value cs < 10 ^ cs.length := by
  induction cs using List.reverseRecOn with
  | nil => simp
  | append_singleton cs c ih =>
      have last := digitValue_lt (digits c (by simp))
      have front := ih (fun d member => digits d (by simp [member]))
      rw [value_concat, List.length_append, List.length_singleton, pow_succ]
      omega

theorem all_IsDigit_decDigits (n : Nat) : ∀ c ∈ decDigits n, IsDigit c = true := by
  induction n using Nat.strong_induction_on with
  | _ n ih =>
      rw [decDigits]
      split_ifs with small
      · intro c member
        rw [List.mem_singleton] at member
        subst member
        exact IsDigit_digitChar small
      · intro c member
        rcases List.mem_append.mp member with front | last
        · exact ih (n / 10) (Nat.div_lt_self (by omega) (by omega)) c front
        · rw [List.mem_singleton] at last
          subst last
          exact IsDigit_digitChar (Nat.mod_lt _ (by omega))

theorem value_decDigits (n : Nat) : value (decDigits n) = n := by
  induction n using Nat.strong_induction_on with
  | _ n ih =>
      rw [decDigits]
      split_ifs with small
      · rw [← List.nil_append [digitChar n], value_concat, value_nil, digitValue_digitChar small, Nat.zero_mul,
          Nat.zero_add]
      · rw [value_concat, ih (n / 10) (Nat.div_lt_self (by omega) (by omega)),
          digitValue_digitChar (Nat.mod_lt _ (by omega))]
        omega

theorem length_decDigits_le {n k : Nat} (positive : 0 < k) (below : n < 10 ^ k) : (decDigits n).length ≤ k := by
  induction k generalizing n with
  | zero => omega
  | succ k ih =>
      rw [decDigits]
      split_ifs with small
      · simp
      · have shorter : n / 10 < 10 ^ k := by
          rw [Nat.div_lt_iff_lt_mul (by decide), ← pow_succ]
          exact below
        have notOne : 0 < k := by
          by_contra zero
          obtain rfl : k = 0 := by omega
          omega
        rw [List.length_append, List.length_singleton]
        have := ih notOne shorter
        omega

theorem length_zeroPadded {width n : Nat} (positive : 0 < width) (below : n < 10 ^ width) :
    (zeroPadded width n).length = width := by
  rw [zeroPadded, List.length_append, List.length_replicate]
  have := length_decDigits_le positive below
  omega

theorem value_zeroPadded (width n : Nat) : value (zeroPadded width n) = n := by
  rw [zeroPadded, value_zeros_append, value_decDigits]

theorem all_IsDigit_zeroPadded (width n : Nat) : ∀ c ∈ zeroPadded width n, IsDigit c = true := by
  intro c member
  rcases List.mem_append.mp member with zero | digit
  · rw [List.eq_of_mem_replicate zero]
    rfl
  · exact all_IsDigit_decDigits n c digit

end Decimal
