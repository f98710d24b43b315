import Mathlib

/-! A checksum register over GF(32), as the BCH codes of the bech32 family run it.

The register holds 5-bit symbols, the one read first at the top, which starts at bit `low`.
Reading a symbol shifts the register up by one symbol and XORs the symbol in at the bottom;
the symbol shifted out at the top is fed back as the XOR of the generator multiples its bits
select. Every step is XOR-linear, and a symbol read in reaches the top only after the register
is full: so reading the register's own content back, symbol by symbol, XORs it into the
register, which is how a checksum is made. -/

namespace Polymod

/-- The XOR of the entries of `gens` whose bit in `c0` is set, bit `i` selecting entry `i`. -/
def feedback : List Nat → Nat → Nat
  | [], _ => 0
  | g :: gens, c0 => (if c0.testBit 0 then g else 0) ^^^ feedback gens (c0 >>> 1)

section Register

variable (low : Nat) (gens : List Nat)

def step (c v : Nat) : Nat := ((c &&& (2 ^ low - 1)) <<< 5 ^^^ v) ^^^ feedback gens (c >>> low)

/-- The register after reading `symbols`, starting from `c`. -/
def run (c : Nat) (symbols : List Nat) : Nat := symbols.foldl (step low gens) c

end Register

def pack : List Nat → Nat
  | [] => 0
  | x :: xs => x <<< (5 * xs.length) ^^^ pack xs

/-- The `k` symbols of `m`, the highest first. -/
def groups (k m : Nat) : List Nat := (List.range k).map fun i => (m >>> (5 * (k - 1 - i))) &&& 31

variable {low : Nat} {gens : List Nat}

theorem feedback_lt {w : Nat} (bounded : ∀ g ∈ gens, g < 2 ^ w) (c0 : Nat) : feedback gens c0 < 2 ^ w := by
  induction gens generalizing c0 with
  | nil => exact Nat.two_pow_pos w
  | cons g gens ih =>
      have head : (if c0.testBit 0 then g else 0) < 2 ^ w := by
        split
        · exact bounded g (List.mem_cons_self ..)
        · exact Nat.two_pow_pos w
      exact Nat.xor_lt_two_pow head (ih (fun g' member => bounded g' (List.mem_cons_of_mem _ member)) _)

theorem feedback_mod {k : Nat} (few : gens.length ≤ k) (c0 : Nat) :
    feedback gens (c0 % 2 ^ k) = feedback gens c0 := by
  induction gens generalizing c0 k with
  | nil => rfl
  | cons g gens ih =>
      obtain ⟨k, rfl⟩ : ∃ k', k = k' + 1 := ⟨k - 1, by simp at few; omega⟩
      have lowBit : (c0 % 2 ^ (k + 1)).testBit 0 = c0.testBit 0 := by
        rw [Nat.testBit_mod_two_pow]
        simp
      have rest : (c0 % 2 ^ (k + 1)) >>> 1 = (c0 >>> 1) % 2 ^ k := by
        rw [Nat.shiftRight_eq_div_pow, Nat.shiftRight_eq_div_pow, pow_succ', pow_one, Nat.mod_mul_right_div_self]
      rw [feedback, feedback, lowBit, rest, ih (by simp at few; omega)]

@[simp] theorem run_nil (c : Nat) : run low gens c [] = c := rfl

@[simp] theorem run_cons (c v : Nat) (symbols : List Nat) :
    run low gens c (v :: symbols) = run low gens (step low gens c v) symbols := rfl

theorem run_append (c : Nat) (front back : List Nat) :
    run low gens c (front ++ back) = run low gens (run low gens c front) back :=
  List.foldl_append ..

section Bounds

variable (bounded : ∀ g ∈ gens, g < 2 ^ (low + 5))
include bounded

theorem step_lt (c : Nat) {v : Nat} (symbol : v < 2 ^ (low + 5)) : step low gens c v < 2 ^ (low + 5) := by
  have kept : c &&& (2 ^ low - 1) < 2 ^ low := Nat.and_lt_two_pow c (Nat.sub_lt (Nat.two_pow_pos low) one_pos)
  have shifted : (c &&& (2 ^ low - 1)) <<< 5 < 2 ^ (low + 5) := Nat.shiftLeft_lt kept
  exact Nat.xor_lt_two_pow (Nat.xor_lt_two_pow shifted symbol) (feedback_lt bounded _)

theorem run_lt {c : Nat} (start : c < 2 ^ (low + 5)) (symbols : List Nat)
    (small : ∀ v ∈ symbols, v < 2 ^ (low + 5)) : run low gens c symbols < 2 ^ (low + 5) := by
  induction symbols generalizing c with
  | nil => exact start
  | cons v symbols ih =>
      rw [run_cons]
      apply ih (step_lt bounded c (small v (List.mem_cons_self ..)))
      intro v' member
      exact small v' (List.mem_cons_of_mem _ member)

end Bounds

theorem step_xor {c c' : Nat} (agree : c ^^^ c' < 2 ^ low) (v v' : Nat) :
    step low gens c v ^^^ step low gens c' v' = (c ^^^ c') <<< 5 ^^^ (v ^^^ v') := by
  have sameTop : c >>> low = c' >>> low := by
    apply Nat.xor_eq_zero_iff.mp
    rw [← Nat.shiftRight_xor_distrib, Nat.shiftRight_eq_div_pow, Nat.div_eq_of_lt agree]
  have kept : (c &&& (2 ^ low - 1)) ^^^ (c' &&& (2 ^ low - 1)) = c ^^^ c' := by
    rw [← Nat.and_xor_distrib_right, Nat.and_two_pow_sub_one_of_lt_two_pow agree]
  unfold step
  rw [sameTop]
  -- regroup so that the shifted halves meet and the two feedbacks cancel
  calc ((c &&& (2 ^ low - 1)) <<< 5 ^^^ v ^^^ feedback gens (c' >>> low)) ^^^
        ((c' &&& (2 ^ low - 1)) <<< 5 ^^^ v' ^^^ feedback gens (c' >>> low))
      = ((c &&& (2 ^ low - 1)) <<< 5 ^^^ (c' &&& (2 ^ low - 1)) <<< 5) ^^^ (v ^^^ v') ^^^
          (feedback gens (c' >>> low) ^^^ feedback gens (c' >>> low)) := by ac_rfl
    _ = (c ^^^ c') <<< 5 ^^^ (v ^^^ v') := by
        rw [← Nat.shiftLeft_xor_distrib, kept, Nat.xor_self, Nat.xor_zero]

theorem run_xor (symbols symbols' : List Nat) (sameLength : symbols.length = symbols'.length)
    (small : ∀ v ∈ symbols, v < 32) (small' : ∀ v ∈ symbols', v < 32) (fits : 5 * symbols.length ≤ low + 5)
    {c c' : Nat} (agree : c ^^^ c' < 2 ^ (low + 5 - 5 * symbols.length)) :
    run low gens c symbols ^^^ run low gens c' symbols' =
      (c ^^^ c') <<< (5 * symbols.length) ^^^ (pack symbols ^^^ pack symbols') := by
  induction symbols generalizing symbols' c c' with
  | nil =>
      obtain rfl : symbols' = [] := List.eq_nil_of_length_eq_zero sameLength.symm
      simp [pack]
  | cons x xs ih =>
      obtain ⟨y, ys, rfl⟩ : ∃ y ys, symbols' = y :: ys :=
        List.exists_cons_of_length_eq_add_one sameLength.symm
      simp only [List.length_cons] at sameLength fits agree
      have hx : x < 32 := small x (List.mem_cons_self ..)
      have hy : y < 32 := small' y (List.mem_cons_self ..)
      -- after one step the difference has moved up one symbol and taken in `x ^^^ y`
      have stepped := @step_xor low gens c c' (lt_of_lt_of_le agree (Nat.pow_le_pow_right (by decide) (by omega))) x y
      have grown : (c ^^^ c') <<< 5 ^^^ (x ^^^ y) < 2 ^ (low + 5 - 5 * xs.length) := by
        have shifted : (c ^^^ c') <<< 5 < 2 ^ (low + 5 - 5 * xs.length) := by
          have := Nat.shiftLeft_lt (m := 5) agree
          rwa [show low + 5 - 5 * (xs.length + 1) + 5 = low + 5 - 5 * xs.length by omega] at this
        have symbol : x ^^^ y < 2 ^ (low + 5 - 5 * xs.length) :=
          lt_of_lt_of_le (Nat.xor_lt_two_pow (n := 5) hx hy) (Nat.pow_le_pow_right (by decide) (by omega))
        exact Nat.xor_lt_two_pow shifted symbol
      rw [run_cons, run_cons, ih ys (by omega) (fun v member => small v (List.mem_cons_of_mem _ member))
        (fun v member => small' v (List.mem_cons_of_mem _ member)) (by omega) (stepped ▸ grown), stepped]
      have lengths : ys.length = xs.length := by omega
      simp only [pack, List.length_cons, lengths, Nat.shiftLeft_xor_distrib, ← Nat.shiftLeft_add,
        show 5 + 5 * xs.length = 5 * (xs.length + 1) by ring]
      ac_rfl

theorem run_append_symbols (c : Nat) (symbols : List Nat) (small : ∀ v ∈ symbols, v < 32)
    (fits : 5 * symbols.length ≤ low + 5) :
    run low gens c symbols = run low gens c (List.replicate symbols.length 0) ^^^ pack symbols := by
  have linear := @run_xor low gens symbols (List.replicate symbols.length 0) (by simp) small
    (fun v member => by rw [List.eq_of_mem_replicate member]; decide) fits c c
    (by rw [Nat.xor_self]; exact Nat.two_pow_pos _)
  have zeros : pack (List.replicate symbols.length 0) = 0 := by
    induction symbols.length with
    | zero => rfl
    | succ n ih => simp [pack, List.replicate_succ, ih]
  rw [Nat.xor_self, Nat.zero_shiftLeft, zeros, Nat.xor_zero, Nat.zero_xor] at linear
  calc run low gens c symbols
      = run low gens c (List.replicate symbols.length 0) ^^^
          (run low gens c symbols ^^^ run low gens c (List.replicate symbols.length 0)) := by
        rw [Nat.xor_comm (run low gens c symbols), ← Nat.xor_assoc, Nat.xor_self, Nat.zero_xor]
    _ = run low gens c (List.replicate symbols.length 0) ^^^ pack symbols := by rw [linear]

theorem length_groups (k m : Nat) : (groups k m).length = k := by simp [groups]

theorem groups_lt {k m : Nat} : ∀ v ∈ groups k m, v < 32 := by
  intro v member
  obtain ⟨i, -, rfl⟩ := List.mem_map.mp member
  exact Nat.and_lt_two_pow (n := 5) _ (by decide)

theorem groups_succ (k m : Nat) : groups (k + 1) m = ((m >>> (5 * k)) &&& 31) :: groups k m := by
  rw [groups, groups, List.range_succ_eq_map, List.map_cons, List.map_map]
  refine congrArg₂ List.cons (by simp) (List.map_congr_left fun i member => ?_)
  have below := List.mem_range.mp member
  simp only [Function.comp_apply, show k + 1 - 1 - (i + 1) = k - 1 - i by omega]

theorem shiftLeft_xor_mod (m k : Nat) :
    ((m >>> (5 * k)) &&& 31) <<< (5 * k) ^^^ m % 2 ^ (5 * k) = m % 2 ^ (5 * (k + 1)) := by
  apply Nat.eq_of_testBit_eq
  intro i
  simp only [Nat.testBit_xor, Nat.testBit_shiftLeft, Nat.testBit_and, Nat.testBit_shiftRight,
    Nat.testBit_mod_two_pow, show (31 : Nat) = 2 ^ 5 - 1 from rfl, Nat.testBit_two_pow_sub_one]
  by_cases below : i < 5 * k
  · have : ¬(5 * k ≤ i) := by omega
    have : i < 5 * (k + 1) := by omega
    simp [*]
  · have lower : 5 * k ≤ i := by omega
    have shift : 5 * k + (i - 5 * k) = i := by omega
    by_cases inside : i < 5 * (k + 1)
    · have : i - 5 * k < 5 := by omega
      simp [*]
    · have : ¬(i - 5 * k < 5) := by omega
      simp [*]

theorem pack_groups (k m : Nat) : pack (groups k m) = m % 2 ^ (5 * k) := by
  induction k with
  | zero => simp [groups, pack, Nat.mod_one]
  | succ k ih => rw [groups_succ, pack, length_groups, ih, shiftLeft_xor_mod]

theorem run_groups {k : Nat} (c : Nat) (symbolsFit : 5 * k = low + 5) {m : Nat} (small : m < 2 ^ (5 * k))
    (bounded : run low gens c (List.replicate k 0) < 2 ^ (5 * k)) :
    run low gens c (groups k (run low gens c (List.replicate k 0) ^^^ m)) = m := by
  have fits : run low gens c (List.replicate k 0) ^^^ m < 2 ^ (5 * k) := Nat.xor_lt_two_pow bounded small
  rw [run_append_symbols c _ groups_lt (by rw [length_groups]; omega), length_groups, pack_groups,
    Nat.mod_eq_of_lt fits, ← Nat.xor_assoc, Nat.xor_self, Nat.zero_xor]

end Polymod
