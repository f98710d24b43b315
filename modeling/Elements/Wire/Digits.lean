import Elements.Wire.Decoder

/-! The shortest little-endian encoding of a natural number: its base-256
digits, with no trailing zero byte. A loop that emits the low byte and shifts
right until nothing is left produces it, and so does a loop that pops zero
bytes off the end of any encoding of the same number. -/

namespace Wire

/-- The bytes of `n`, least significant first, emitted until nothing is left. -/
def bytesLE (n : Nat) : Bytes :=
  if n = 0 then [] else UInt8.ofNat (n % 256) :: bytesLE (n / 256)
termination_by n
decreasing_by omega

@[simp] theorem bytesLE_zero : bytesLE 0 = [] := by
  rw [bytesLE, if_pos rfl]

theorem valueLE_eq_ofDigits (bytes : Bytes) :
    valueLE bytes = Nat.ofDigits 256 (bytes.map UInt8.toNat) := by
  induction bytes with
  | nil => rfl
  | cons byte rest ih => simp [valueLE, Nat.ofDigits_cons, ih]

theorem bytesLE_eq_digits (n : Nat) : bytesLE n = (Nat.digits 256 n).map UInt8.ofNat := by
  fun_induction bytesLE n with
  | case1 => simp
  | case2 n nonzero ih =>
      rw [Nat.digits_def' (by decide) (Nat.pos_of_ne_zero nonzero), List.map_cons, ← ih]

@[simp] theorem valueLE_bytesLE (n : Nat) : valueLE (bytesLE n) = n := by
  have digits : ∀ d ∈ Nat.digits 256 n, d < 256 := fun _ member =>
    Nat.digits_lt_base (by decide) member
  rw [valueLE_eq_ofDigits, bytesLE_eq_digits, List.map_map,
    List.map_congr_left (g := id) (fun d member => by simp [Nat.mod_eq_of_lt (digits d member)]),
    List.map_id, Nat.ofDigits_digits]

theorem getLast_bytesLE_ne_zero (n : Nat) (nonempty : bytesLE n ≠ []) :
    (bytesLE n).getLast nonempty ≠ 0 := by
  have digitsNonempty : Nat.digits 256 n ≠ [] := by
    rw [bytesLE_eq_digits] at nonempty
    exact fun empty => nonempty (by rw [empty, List.map_nil])
  have last := Nat.getLast_digit_ne_zero 256 (Nat.digits_ne_nil_iff_ne_zero.mp digitsNonempty)
  have small := Nat.digits_lt_base (by decide) (List.getLast_mem digitsNonempty)
  simp only [bytesLE_eq_digits, List.getLast_map]
  intro zero
  have := congrArg UInt8.toNat zero
  simp [Nat.mod_eq_of_lt small] at this
  exact last this

theorem bytesLE_valueLE {bytes : Bytes} (noTrailingZero : ∀ nonempty, bytes.getLast nonempty ≠ 0) :
    bytesLE (valueLE bytes) = bytes := by
  have digits : Nat.digits 256 (Nat.ofDigits 256 (bytes.map UInt8.toNat)) = bytes.map UInt8.toNat := by
    refine Nat.digits_ofDigits 256 (by decide) _ (fun d member => ?_) (fun nonempty => ?_)
    · obtain ⟨byte, -, rfl⟩ := List.mem_map.mp member
      exact byte.toNat_lt
    · rw [List.getLast_map]
      intro zero
      exact noTrailingZero (fun empty => nonempty (by rw [empty, List.map_nil]))
        (UInt8.toNat_inj.mp zero)
  rw [bytesLE_eq_digits, valueLE_eq_ofDigits, digits, List.map_map]
  conv_rhs => rw [← List.map_id bytes]
  exact List.map_congr_left fun byte _ => UInt8.ofNat_toNat

theorem length_bytesLE_le {n k : Nat} (fits : n < 256 ^ k) : (bytesLE n).length ≤ k := by
  rw [bytesLE_eq_digits, List.length_map]
  exact (Nat.digits_length_le_iff (by decide) n).mpr fits

theorem valueLE_append (front back : Bytes) :
    valueLE (front ++ back) = valueLE front + 256 ^ front.length * valueLE back := by
  induction front with
  | nil => simp [valueLE]
  | cons byte rest ih =>
      simp only [List.cons_append, valueLE, ih, List.length_cons, Nat.pow_succ]
      ring

theorem valueLE_concat (init : Bytes) (last : UInt8) :
    valueLE (init ++ [last]) = valueLE init + 256 ^ init.length * last.toNat := by
  simp [valueLE_append, valueLE]

theorem bytesLE_eq_concat {n : Nat} (nonzero : n ≠ 0) :
    ∃ init last, bytesLE n = init ++ [last] ∧ last ≠ 0 ∧
      valueLE init + 256 ^ init.length * last.toNat = n := by
  have nonempty : bytesLE n ≠ [] := by
    intro empty
    have value := valueLE_bytesLE n
    rw [empty] at value
    exact nonzero value.symm
  refine ⟨(bytesLE n).dropLast, (bytesLE n).getLast nonempty,
    (List.dropLast_append_getLast nonempty).symm, getLast_bytesLE_ne_zero n nonempty, ?_⟩
  rw [← valueLE_concat, List.dropLast_append_getLast, valueLE_bytesLE]

theorem valueLE_eq_zero_of_forall {bytes : Bytes} (zeros : ∀ byte ∈ bytes, byte = 0) :
    valueLE bytes = 0 := by
  induction bytes with
  | nil => rfl
  | cons byte rest ih =>
      simp only [List.mem_cons, forall_eq_or_imp] at zeros
      simp [valueLE, zeros.1, ih zeros.2]

theorem valueLE_drop (bytes : Bytes) (k : Nat) : valueLE (bytes.drop k) = valueLE bytes / 256 ^ k := by
  by_cases within : k ≤ bytes.length
  · have split := valueLE_append (bytes.take k) (bytes.drop k)
    rw [List.take_append_drop, List.length_take_of_le within] at split
    have lower := valueLE_lt (bytes.take k)
    rw [List.length_take_of_le within] at lower
    rw [split, Nat.add_mul_div_left _ _ (by positivity), Nat.div_eq_of_lt lower, Nat.zero_add]
  · have bounded : valueLE bytes < 256 ^ k :=
      lt_of_lt_of_le (valueLE_lt bytes) (Nat.pow_le_pow_right (by decide) (by omega))
    rw [List.drop_of_length_le (by omega), Nat.div_eq_of_lt bounded]
    rfl

theorem foldl_or_shiftLeft (bytes : Bytes) (k acc : Nat) (below : acc < 2 ^ (8 * k)) :
    (bytes.zipIdx k).foldl (fun result entry => result ||| entry.1.toNat <<< (8 * entry.2)) acc =
      acc + 2 ^ (8 * k) * valueLE bytes := by
  induction bytes generalizing k acc with
  | nil => simp [valueLE]
  | cons byte rest ih =>
      have digit := byte.toNat_lt
      have disjoint : acc ||| byte.toNat <<< (8 * k) = acc + 2 ^ (8 * k) * byte.toNat := by
        rw [Nat.lor_comm, ← Nat.shiftLeft_add_eq_or_of_lt below, Nat.shiftLeft_eq]
        ring
      have grows : 2 ^ (8 * (k + 1)) = 2 ^ (8 * k) * 256 := by
        rw [Nat.mul_succ, Nat.pow_add]
      have stillBelow : acc + 2 ^ (8 * k) * byte.toNat < 2 ^ (8 * (k + 1)) := by
        rw [grows]
        nlinarith
      rw [List.zipIdx_cons, List.foldl_cons, disjoint, ih (k + 1) _ stillBelow, grows, valueLE]
      ring

theorem rdropWhile_zero_eq_bytesLE (bytes : Bytes) :
    bytes.rdropWhile (· == 0) = bytesLE (valueLE bytes) := by
  have split := List.rdropWhile_append_rtakeWhile (p := (· == 0)) (l := bytes)
  have zeros : ∀ byte ∈ bytes.rtakeWhile (· == 0), byte = 0 := fun _ member => by
    simpa using List.mem_rtakeWhile_imp member
  have sameValue : valueLE bytes = valueLE (bytes.rdropWhile (· == 0)) := by
    conv_lhs => rw [← split]
    rw [valueLE_append, valueLE_eq_zero_of_forall zeros, Nat.mul_zero, Nat.add_zero]
  rw [sameValue, bytesLE_valueLE]
  intro nonempty
  simpa using List.rdropWhile_last_not (· == 0) bytes nonempty

end Wire
