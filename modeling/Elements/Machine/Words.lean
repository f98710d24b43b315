import Mathlib

/-! Numbers kept as an array of 32-bit words, least significant first, as a C array of
`uint32_t` limbs keeps them. A bit of the number is a bit of one word, so the loops that OR
shifted words into such an array are read bit by bit: each pass of a loop sets the bits of the
words it touches, and after the loop a word holds the bits of every pass. -/

namespace Words

def value : List UInt32 → Nat
  | [] => 0
  | w :: ws => w.toNat + 2 ^ 32 * value ws

@[simp] theorem value_nil : value [] = 0 := rfl

theorem value_cons (w : UInt32) (ws : List UInt32) : value (w :: ws) = w.toNat + 2 ^ 32 * value ws := rfl

theorem value_lt (ws : List UInt32) : value ws < 2 ^ (32 * ws.length) := by
  induction ws with
  | nil => simp
  | cons w ws ih =>
      have word := w.toNat_lt
      calc value (w :: ws) = w.toNat + 2 ^ 32 * value ws := rfl
        _ < 2 ^ 32 * (value ws + 1) := by omega
        _ ≤ 2 ^ 32 * 2 ^ (32 * ws.length) := Nat.mul_le_mul_left _ ih
        _ = 2 ^ (32 * (w :: ws).length) := by
          rw [← pow_add, List.length_cons, Nat.mul_succ, Nat.add_comm]

@[simp] theorem value_replicate_zero (n : Nat) : value (List.replicate n 0) = 0 := by
  induction n with
  | zero => rfl
  | succ n ih => rw [List.replicate_succ, value_cons, ih]; rfl

theorem value_take_succ (ws : List UInt32) (n : Nat) :
    value (ws.take (n + 1)) = value (ws.take n) + 2 ^ (32 * n) * (ws.getD n 0).toNat := by
  induction ws generalizing n with
  | nil => simp
  | cons w ws ih =>
      cases n with
      | zero => simp [value_cons]
      | succ n =>
          rw [List.take_succ_cons, List.take_succ_cons, value_cons, value_cons, ih, List.getD_cons_succ,
            Nat.mul_succ, Nat.pow_add]
          ring

theorem add_mul_lt_add_mul_iff {x y u v B : Nat} (lowX : x < B) (lowY : y < B) :
    x + B * u < y + B * v ↔ u < v ∨ (u = v ∧ x < y) := by
  constructor
  · intro less
    rcases Nat.lt_trichotomy u v with below | same | above
    · exact Or.inl below
    · subst same
      exact Or.inr ⟨rfl, by omega⟩
    · have : B * (v + 1) ≤ B * u := Nat.mul_le_mul_left _ above
      rw [Nat.mul_succ] at this
      omega
  · rintro (below | ⟨rfl, less⟩)
    · have : B * (u + 1) ≤ B * v := Nat.mul_le_mul_left _ below
      rw [Nat.mul_succ] at this
      omega
    · omega

theorem eq_of_value_eq : ∀ {ws vs : List UInt32}, ws.length = vs.length → value ws = value vs → ws = vs
  | [], [], _, _ => rfl
  | w :: ws, v :: vs, length, same => by
      rw [value_cons, value_cons] at same
      have low := w.toNat_lt
      have low' := v.toNat_lt
      have word : w = v := UInt32.toNat_inj.mp (by omega)
      have rest : value ws = value vs := by omega
      rw [word, eq_of_value_eq (by simpa using length) rest]

theorem testBit_word_of_le (w : UInt32) {b : Nat} (above : 32 ≤ b) : w.toNat.testBit b = false :=
  Nat.testBit_eq_false_of_lt (lt_of_lt_of_le w.toNat_lt (Nat.pow_le_pow_right (by decide) above))

theorem testBit_value (ws : List UInt32) (p : Nat) :
    (value ws).testBit p = (ws.getD (p / 32) 0).toNat.testBit (p % 32) := by
  induction ws generalizing p with
  | nil => simp
  | cons w ws ih =>
      rw [value_cons, Nat.add_comm w.toNat, Nat.testBit_two_pow_mul_add _ w.toNat_lt]
      by_cases low : p < 32
      · rw [if_pos low, Nat.div_eq_of_lt low, Nat.mod_eq_of_lt low, List.getD_cons_zero]
      · obtain ⟨q, rfl⟩ : ∃ q, p = q + 32 := ⟨p - 32, by omega⟩
        rw [if_neg low, Nat.add_sub_cancel, ih, Nat.add_div_right _ (by decide), List.getD_cons_succ,
          Nat.add_mod_right]

theorem testBit_value_at (ws : List UInt32) (q : Nat) {b : Nat} (small : b < 32) :
    (value ws).testBit (32 * q + b) = (ws.getD q 0).toNat.testBit b := by
  rw [testBit_value, Nat.mul_add_div (by decide), Nat.div_eq_of_lt small, Nat.add_zero, Nat.mul_add_mod,
    Nat.mod_eq_of_lt small]

theorem value_eq_zero_of_getD {ws : List UInt32} (zero : ∀ q, ws.getD q 0 = 0) : value ws = 0 := by
  apply Nat.eq_of_testBit_eq
  intro p
  rw [testBit_value, zero, UInt32.toNat_zero, Nat.zero_testBit, Nat.zero_testBit]

theorem getD_eq_zero_of_value_eq_zero {ws : List UInt32} (zero : value ws = 0) (q : Nat) : ws.getD q 0 = 0 := by
  have sameLength : ws.length = (List.replicate ws.length (0 : UInt32)).length := by simp
  rw [eq_of_value_eq sameLength (by rw [zero, value_replicate_zero])]
  by_cases inside : q < ws.length
  · exact List.getD_replicate _ inside
  · exact List.getD_eq_default _ _ (by simpa using inside)

theorem and_one_shiftLeft_ne_zero_iff (w : UInt32) {i : Nat} (small : i < 32) :
    w &&& 1 <<< UInt32.ofNat i ≠ 0 ↔ w.toNat.testBit i = true := by
  have single : (1 <<< UInt32.ofNat i : UInt32).toNat = 2 ^ i := by
    rw [UInt32.toNat_shiftLeft, UInt32.toNat_ofNat_of_lt' (lt_trans small (by decide)), Nat.mod_eq_of_lt small,
      UInt32.toNat_one, Nat.one_shiftLeft, Nat.mod_eq_of_lt (Nat.pow_lt_pow_right (by decide) small)]
  rw [ne_eq, ← UInt32.toNat_inj, UInt32.toNat_and, single, Nat.and_two_pow, UInt32.toNat_zero]
  cases w.toNat.testBit i <;> simp

theorem testBit_shiftLeft_word (w : UInt32) {sh : Nat} (small : sh < 32) (b : Nat) :
    (w <<< UInt32.ofNat sh).toNat.testBit b = (decide (b < 32) && (decide (sh ≤ b) && w.toNat.testBit (b - sh))) := by
  rw [UInt32.toNat_shiftLeft, UInt32.toNat_ofNat_of_lt' (lt_trans small (by decide)), Nat.mod_eq_of_lt small,
    Nat.testBit_mod_two_pow, Nat.testBit_shiftLeft]

theorem testBit_shiftRight_word (w : UInt32) {sh : Nat} (small : sh < 32) (b : Nat) :
    (w >>> UInt32.ofNat sh).toNat.testBit b = w.toNat.testBit (sh + b) := by
  rw [UInt32.toNat_shiftRight, UInt32.toNat_ofNat_of_lt' (lt_trans small (by decide)), Nat.mod_eq_of_lt small, Nat.testBit_shiftRight]

theorem testBit_getD_modify_or (ws : List UInt32) (p j b : Nat) (v : UInt32) :
    ((ws.modify p (· ||| v)).getD j 0).toNat.testBit b =
      ((ws.getD j 0).toNat.testBit b || (decide (p = j ∧ j < ws.length) && v.toNat.testBit b)) := by
  rw [List.getD_eq_getElem?_getD, List.getElem?_modify, List.getD_eq_getElem?_getD]
  by_cases inRange : j < ws.length
  · rw [List.getElem?_eq_getElem inRange]
    by_cases here : p = j
    · simp [here, inRange, UInt32.toNat_or, Nat.testBit_or]
    · simp [here]
  · rw [List.getElem?_eq_none (by omega)]
    simp [inRange]

section Passes

variable {f : List UInt32 → Nat → List UInt32} {C : Nat → Nat → Nat → Prop}

theorem length_foldl_range (length : ∀ pn i, (f pn i).length = pn.length) (init : List UInt32) (n : Nat) :
    ((List.range n).foldl f init).length = init.length := by
  induction n with
  | zero => rfl
  | succ n ih => rw [List.range_succ, List.foldl_append, List.foldl_cons, List.foldl_nil, length, ih]

theorem testBit_foldl_range (length : ∀ pn i, (f pn i).length = pn.length) (init : List UInt32)
    (step : ∀ pn, pn.length = init.length → ∀ i j b,
      ((f pn i).getD j 0).toNat.testBit b = true ↔ (pn.getD j 0).toNat.testBit b = true ∨ C i j b)
    (n j b : Nat) :
    (((List.range n).foldl f init).getD j 0).toNat.testBit b = true ↔
      (init.getD j 0).toNat.testBit b = true ∨ ∃ i < n, C i j b := by
  induction n with
  | zero => simp
  | succ n ih =>
      rw [List.range_succ, List.foldl_append, List.foldl_cons, List.foldl_nil,
        step _ (length_foldl_range length init n), ih]
      constructor
      · rintro ((initial | ⟨i, below, set⟩) | last)
        · exact Or.inl initial
        · exact Or.inr ⟨i, by omega, set⟩
        · exact Or.inr ⟨n, by omega, last⟩
      · rintro (initial | ⟨i, below, set⟩)
        · exact Or.inl (Or.inl initial)
        · by_cases earlier : i < n
          · exact Or.inl (Or.inr ⟨i, earlier, set⟩)
          · obtain rfl : i = n := by omega
            exact Or.inr set

end Passes

theorem size_eq_succ_of_testBit {x m : Nat} (top : x.testBit m = true)
    (above : ∀ i, m < i → x.testBit i = false) : x.size = m + 1 := by
  apply le_antisymm
  · rw [Nat.size_le]
    exact Nat.lt_pow_two_of_testBit x (fun i atLeast => above i (by omega))
  · rw [Nat.succ_le_iff, Nat.lt_size]
    exact Nat.ge_two_pow_of_testBit top

theorem size_value_of_top {ws : List UInt32} {pos : Nat} (nonzero : ws.getD pos 0 ≠ 0)
    (above : ∀ q, pos < q → ws.getD q 0 = 0) :
    (value ws).size = 32 * pos + (ws.getD pos 0).toNat.size := by
  set w := ws.getD pos 0 with word
  have positive : 0 < w.toNat.size := Nat.size_pos.mpr (by
    rw [Nat.pos_iff_ne_zero]
    intro zero
    exact nonzero (UInt32.toNat_inj.mp (by rw [zero]; rfl)))
  obtain ⟨m, sized⟩ : ∃ m, w.toNat.size = m + 1 := ⟨w.toNat.size - 1, by omega⟩
  have wordTop : w.toNat.testBit m = true :=
    Nat.testBit_of_two_pow_le_and_two_pow_add_one_gt (Nat.lt_size.mp (by omega)) (sized ▸ Nat.lt_size_self _)
  have small : m < 32 := by
    have := Nat.size_le.mpr w.toNat_lt
    omega
  rw [sized, ← Nat.add_assoc]
  apply size_eq_succ_of_testBit
  · rw [testBit_value_at _ _ small]
    exact wordTop
  · intro i beyond
    rw [testBit_value]
    by_cases higher : pos < i / 32
    · rw [above _ higher, UInt32.toNat_zero, Nat.zero_testBit]
    · have word : i / 32 = pos := by omega
      rw [word]
      apply Nat.testBit_eq_false_of_lt
      exact lt_of_lt_of_le (sized ▸ Nat.lt_size_self _) (Nat.pow_le_pow_right (by decide) (by omega))

section Shifts

variable {X a b s : Nat}

theorem shiftRight_lt_two_pow_iff : X >>> a < 2 ^ b ↔ X < 2 ^ (a + b) := by
  rw [Nat.shiftRight_eq_div_pow, Nat.div_lt_iff_lt_mul (by positivity), ← pow_add, Nat.add_comm]

theorem two_pow_le_shiftRight_iff : 2 ^ b ≤ X >>> a ↔ 2 ^ (a + b) ≤ X := by
  rw [← Nat.not_lt, ← Nat.not_lt, shiftRight_lt_two_pow_iff]

theorem shiftLeft_lt_two_pow_iff : X <<< a < 2 ^ (a + b) ↔ X < 2 ^ b := by
  rw [Nat.shiftLeft_eq, pow_add, Nat.mul_comm (2 ^ a), Nat.mul_lt_mul_right (by positivity)]

theorem shiftRight_shiftLeft_le : X >>> s <<< s ≤ X := by
  rw [Nat.shiftRight_eq_div_pow, Nat.shiftLeft_eq]
  exact Nat.div_mul_le_self _ _

theorem two_pow_le_shiftRight_shiftLeft (below : s ≤ a) (reached : 2 ^ a ≤ X) : 2 ^ a ≤ X >>> s <<< s := by
  rw [Nat.shiftRight_eq_div_pow, Nat.shiftLeft_eq]
  have split : 2 ^ a = 2 ^ (a - s) * 2 ^ s := by rw [← pow_add, Nat.sub_add_cancel below]
  rw [split]
  apply Nat.mul_le_mul_right
  rw [Nat.le_div_iff_mul_le (by positivity), ← split]
  exact reached

theorem shiftRight_shiftLeft_of_dvd (multiple : 2 ^ s ∣ X) : X >>> s <<< s = X := by
  rw [Nat.shiftRight_eq_div_pow, Nat.shiftLeft_eq, Nat.div_mul_cancel multiple]

end Shifts

end Words
