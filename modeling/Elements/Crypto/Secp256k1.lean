import Elements.Algebra.Pratt
import Elements.Primitives.Confidential

/-! The parts of libsecp256k1 (`src/secp256k1`) that `CPubKey::IsFullyValid` and
`CPubKey::Decompress` run: parsing a public key, the square root that recovers the `y` of a
compressed key, and serializing a key uncompressed. A field element is a number below `P`, as
the library's normalized elements are. The field prime is proved prime by a Pratt certificate;
in its field the square root the library takes is the `y` of any point with the same `x`, up
to sign, and the parity a compressed key carries picks the sign. -/

namespace Elements.secp256k1

open Wire

def P : Nat := 2 ^ 256 - 2 ^ 32 - 977

/-- A Pratt certificate of `P`: each number with Lucas's witness and the prime factors of the
number less one. -/
def certificate : List Pratt.Entry := [
  ⟨3, 2, [2]⟩,
  ⟨7, 3, [2, 3]⟩,
  ⟨5, 2, [2, 2]⟩,
  ⟨13441, 11, [2, 2, 2, 2, 2, 2, 2, 3, 5, 7]⟩,
  ⟨29, 2, [2, 2, 7]⟩,
  ⟨31, 3, [2, 3, 5]⟩,
  ⟨11, 2, [2, 5]⟩,
  ⟨13, 2, [2, 2, 3]⟩,
  ⟨7723, 3, [2, 3, 3, 3, 11, 13]⟩,
  ⟨17, 3, [2, 2, 2, 2]⟩,
  ⟨443, 2, [2, 13, 17]⟩,
  ⟨887, 5, [2, 443]⟩,
  ⟨5323, 5, [2, 3, 887]⟩,
  ⟨131, 2, [2, 5, 13]⟩,
  ⟨2621, 2, [2, 2, 5, 131]⟩,
  ⟨24809, 6, [2, 2, 2, 7, 443]⟩,
  ⟨97, 5, [2, 2, 2, 2, 2, 3]⟩,
  ⟨971, 6, [2, 5, 97]⟩,
  ⟨1373, 2, [2, 2, 7, 7, 7]⟩,
  ⟨13331831, 13, [2, 5, 971, 1373]⟩,
  ⟨173378833005251801, 6, [2, 2, 2, 5, 5, 2621, 24809, 13331831]⟩,
  ⟨22149492674086928081353, 5, [2, 2, 2, 3, 5323, 173378833005251801]⟩,
  ⟨132896956044521568488119, 6, [2, 3, 22149492674086928081353]⟩,
  ⟨271, 6, [2, 3, 3, 3, 5]⟩,
  ⟨1627, 3, [2, 3, 271]⟩,
  ⟨41, 6, [2, 2, 2, 5]⟩,
  ⟨83, 2, [2, 41]⟩,
  ⟨2657, 3, [2, 2, 2, 2, 2, 83]⟩,
  ⟨67, 2, [2, 3, 11]⟩,
  ⟨4423, 3, [2, 3, 11, 67]⟩,
  ⟨103, 5, [2, 3, 17]⟩,
  ⟨41201, 3, [2, 2, 2, 2, 5, 5, 103]⟩,
  ⟨101, 2, [2, 2, 5, 5]⟩,
  ⟨239, 7, [2, 7, 17]⟩,
  ⟨96557, 2, [2, 2, 101, 239]⟩,
  ⟨19, 2, [2, 3, 3]⟩,
  ⟨419, 2, [2, 11, 19]⟩,
  ⟨20113, 10, [2, 2, 2, 2, 3, 419]⟩,
  ⟨1206781, 10, [2, 2, 3, 5, 20113]⟩,
  ⟨7240687, 3, [2, 3, 1206781]⟩,
  ⟨53, 2, [2, 2, 13]⟩,
  ⟨107590001, 3, [2, 2, 2, 2, 5, 5, 5, 5, 7, 29, 53]⟩,
  ⟨255515944373312847190720520512484175977, 3, [2, 2, 2, 7, 7, 11, 1627, 2657, 4423, 41201, 96557, 7240687, 107590001]⟩,
  ⟨205115282021455665897114700593932402728804164701536103180137503955397371, 10, [2, 3, 5, 29, 29, 31, 7723, 132896956044521568488119, 255515944373312847190720520512484175977]⟩,
  ⟨115792089237316195423570985008687907853269984665640564039457584007908834671663, 3, [2, 3, 7, 13441, 205115282021455665897114700593932402728804164701536103180137503955397371]⟩]

theorem certificate_checks : Pratt.checkAll [2] certificate = true := by decide +kernel

theorem prime_P : P.Prime := Pratt.prime_of_mem certificate_checks (by decide +kernel)

instance : Fact P.Prime := ⟨prime_P⟩

/-- `secp256k1_fe_set_b32_limit`: a 32-byte big-endian number, refused unless below `P`. -/
def fe_set_b32_limit (a : Bytes) : Option Nat := if valueBE a < P then some (valueBE a) else none

/-- `secp256k1_fe_get_b32`: the 32-byte big-endian encoding of a normalized element. -/
def fe_get_b32 (a : Nat) : Bytes := (writeLE 32 a).reverse

/-- `secp256k1_fe_sqrt`: `a ^ ((P + 1) / 4)`, a square root of `a` exactly when `a` has one,
which the returned flag tests. -/
def fe_sqrt (a : Nat) : Nat × Bool :=
  let r := Pratt.powMod P a ((P + 1) / 4)
  (r, r * r % P == a % P)

def SECP256K1_B : Nat := 7

/-- `secp256k1_ge_set_xquad`: a `y` with `y ^ 2 = x ^ 3 + 7`, and whether there is one. -/
def ge_set_xquad (x : Nat) : Nat × Bool := fe_sqrt ((x * x % P * x + SECP256K1_B) % P)

/-- `secp256k1_ge_set_xo_var`: the point with `x` whose `y` has the parity `odd`. -/
def ge_set_xo_var (x : Nat) (odd : Bool) : (Nat × Nat) × Bool :=
  let quad := ge_set_xquad x
  -- `secp256k1_fe_negate` of the root with the other parity, normalized
  let y := if (quad.1 % 2 == 1) != odd then (P - quad.1) % P else quad.1
  ((x, y), quad.2)

/-- `secp256k1_ge_is_valid_var`: `y ^ 2 = x ^ 3 + 7`. -/
def ge_is_valid_var (x y : Nat) : Bool := y * y % P == (x * x % P * x + SECP256K1_B) % P

def SECP256K1_TAG_PUBKEY_EVEN : UInt8 := 0x02
def SECP256K1_TAG_PUBKEY_ODD : UInt8 := 0x03
def SECP256K1_TAG_PUBKEY_UNCOMPRESSED : UInt8 := 0x04
def SECP256K1_TAG_PUBKEY_HYBRID_EVEN : UInt8 := 0x06
def SECP256K1_TAG_PUBKEY_HYBRID_ODD : UInt8 := 0x07

/-- `secp256k1_eckey_pubkey_parse`, with the subgroup check `secp256k1_ec_pubkey_parse` adds,
which passes for every point of this curve. -/
def eckey_pubkey_parse (pub : Bytes) : Option (Nat × Nat) :=
  let tag := pub.headD 0
  if pub.length = 33 ∧ (tag = SECP256K1_TAG_PUBKEY_EVEN ∨ tag = SECP256K1_TAG_PUBKEY_ODD) then
    match fe_set_b32_limit (pub.drop 1) with
    | none => none
    | some x =>
        let result := ge_set_xo_var x (tag == SECP256K1_TAG_PUBKEY_ODD)
        if result.2 then some result.1 else none
  else if pub.length = 65 ∧ (tag = SECP256K1_TAG_PUBKEY_UNCOMPRESSED ∨ tag = SECP256K1_TAG_PUBKEY_HYBRID_EVEN ∨
      tag = SECP256K1_TAG_PUBKEY_HYBRID_ODD) then
    match fe_set_b32_limit ((pub.drop 1).take 32), fe_set_b32_limit (pub.drop 33) with
    | some x, some y =>
        if (tag = SECP256K1_TAG_PUBKEY_HYBRID_EVEN ∨ tag = SECP256K1_TAG_PUBKEY_HYBRID_ODD) ∧
            (y % 2 == 1) != (tag == SECP256K1_TAG_PUBKEY_HYBRID_ODD) then none
        else if ge_is_valid_var x y then some (x, y) else none
    | _, _ => none
  else none

/-- `secp256k1_eckey_pubkey_serialize` of an uncompressed key: the tag and both coordinates. -/
def eckey_pubkey_serialize_uncompressed (point : Nat × Nat) : Bytes :=
  SECP256K1_TAG_PUBKEY_UNCOMPRESSED :: (fe_get_b32 point.1 ++ fe_get_b32 point.2)

theorem valueBE_append_singleton (bytes : Bytes) (byte : UInt8) :
    valueBE (bytes ++ [byte]) = valueBE bytes * 256 + byte.toNat := by
  simp [valueBE, List.foldl_append]

theorem valueBE_reverse (bytes : Bytes) : valueBE bytes.reverse = valueLE bytes := by
  induction bytes with
  | nil => rfl
  | cons byte rest ih =>
      rw [List.reverse_cons, valueBE_append_singleton, ih, valueLE]
      ring

theorem reverse_writeLE_valueBE (bytes : Bytes) : (writeLE bytes.length (valueBE bytes)).reverse = bytes := by
  have littleEndian : valueBE bytes = valueLE bytes.reverse := by rw [← valueBE_reverse, List.reverse_reverse]
  rw [littleEndian, ← List.length_reverse, writeLE_valueLE, List.reverse_reverse]

theorem valueBE_lt (bytes : Bytes) : valueBE bytes < 256 ^ bytes.length := by
  rw [← List.reverse_reverse bytes, valueBE_reverse, List.length_reverse]
  exact valueLE_lt bytes.reverse

theorem fe_get_b32_valueBE {b32 : Bytes} (length : b32.length = 32) : fe_get_b32 (valueBE b32) = b32 := by
  rw [fe_get_b32, ← length, reverse_writeLE_valueBE]

theorem P_pos : 0 < P := by decide

theorem four_mul_quarter : 4 * ((P + 1) / 4) = P + 1 := by decide

theorem pow_quarter_sq (y : ZMod P) : ((y ^ 2) ^ ((P + 1) / 4)) ^ 2 = y ^ 2 := by
  have exponent : 2 * ((P + 1) / 4 * 2) = P + 1 := by
    have := four_mul_quarter
    omega
  rw [← pow_mul, ← pow_mul, exponent, pow_succ, ZMod.pow_card, sq]

theorem natCast_eq_natCast_of_lt {a b : Nat} (ha : a < P) (hb : b < P) (equal : (a : ZMod P) = b) : a = b := by
  rw [ZMod.natCast_eq_natCast_iff', Nat.mod_eq_of_lt ha, Nat.mod_eq_of_lt hb] at equal
  exact equal

theorem fe_sqrt_of_sq {a y : Nat} (reduced : y < P) (square : a % P = y * y % P) :
    (fe_sqrt a).2 = true ∧ ((fe_sqrt a).1 = y ∨ (fe_sqrt a).1 + y = P) := by
  unfold fe_sqrt
  dsimp only
  rw [Pratt.powMod_eq a (by decide +kernel)]
  set r := a ^ ((P + 1) / 4) % P with r_def
  have below : r < P := Nat.mod_lt _ P_pos
  have squareCast : (a : ZMod P) = (y : ZMod P) ^ 2 := by
    rw [← ZMod.natCast_mod, square, ZMod.natCast_mod, Nat.cast_mul, sq]
  have rootCast : (r : ZMod P) = ((y : ZMod P) ^ 2) ^ ((P + 1) / 4) := by
    rw [r_def, ZMod.natCast_mod, Nat.cast_pow, squareCast]
  have squares : (r : ZMod P) ^ 2 = (y : ZMod P) ^ 2 := by rw [rootCast, pow_quarter_sq]
  refine ⟨?_, ?_⟩
  · rw [beq_iff_eq, square, ← ZMod.natCast_eq_natCast_iff', Nat.cast_mul, Nat.cast_mul, ← sq, ← sq, squares]
  · rcases sq_eq_sq_iff_eq_or_eq_neg.mp squares with same | opposite
    · exact .inl (natCast_eq_natCast_of_lt below reduced same)
    · -- `r + y` is a multiple of `P` below `2 * P`, so it is `0` or `P`
      have multiple : P ∣ r + y := by
        rw [← ZMod.natCast_eq_zero_iff, Nat.cast_add, opposite, neg_add_cancel]
      obtain ⟨k, sum⟩ := multiple
      have : k ≤ 1 := by
        by_contra large
        have : P * 2 ≤ P * k := Nat.mul_le_mul_left P (by omega)
        omega
      interval_cases k
      · exact .inl (by omega)
      · exact .inr (by omega)

theorem P_odd : P % 2 = 1 := by decide

theorem fe_sqrt_fst_lt (a : Nat) : (fe_sqrt a).1 < P := by
  unfold fe_sqrt
  rw [Pratt.powMod_eq a (by decide +kernel)]
  exact Nat.mod_lt _ P_pos

theorem ge_set_xo_var_of_valid {x y : Nat} (reduced : y < P) (onCurve : ge_is_valid_var x y = true) :
    ge_set_xo_var x (y % 2 == 1) = ((x, y), true) := by
  have square : (x * x % P * x + SECP256K1_B) % P % P = y * y % P := by
    rw [Nat.mod_mod]
    exact (beq_iff_eq.mp onCurve).symm
  have roots := fe_sqrt_of_sq reduced square
  have below := fe_sqrt_fst_lt ((x * x % P * x + SECP256K1_B) % P)
  unfold ge_set_xo_var ge_set_xquad
  cases h : fe_sqrt ((x * x % P * x + SECP256K1_B) % P) with
  | mk r ok =>
      rw [h] at roots below
      obtain ⟨rfl, same | opposite⟩ := roots
      · subst same
        simp
      · -- the other root has the other parity, since `P` is odd, and is negated back
        have odd := P_odd
        have flips : ((r % 2 == 1) != (y % 2 == 1)) = true := by
          have : r % 2 ≠ y % 2 := by omega
          rcases Nat.mod_two_eq_zero_or_one y with even | oddY <;>
            rcases Nat.mod_two_eq_zero_or_one r with evenR | oddR <;> simp_all
        have back : (P - r) % P = y := by
          rw [Nat.mod_eq_of_lt (by omega)]
          omega
        simp only [flips, if_true, back]

section Points

variable {X Y : Bytes}

theorem eckey_pubkey_parse_uncompressed (lengthX : X.length = 32) (lengthY : Y.length = 32)
    {point : Nat × Nat} (parsed : eckey_pubkey_parse (SECP256K1_TAG_PUBKEY_UNCOMPRESSED :: (X ++ Y)) = some point) :
    point = (valueBE X, valueBE Y) ∧ valueBE X < P ∧ valueBE Y < P ∧ ge_is_valid_var (valueBE X) (valueBE Y) = true := by
  have uncompressed : (SECP256K1_TAG_PUBKEY_UNCOMPRESSED :: (X ++ Y)).length = 65 := by
    simp [lengthX, lengthY]
  have first : ((X ++ Y).take 32) = X := by rw [← lengthX, List.take_left]
  have second : ((X ++ Y).drop 32) = Y := by rw [← lengthX, List.drop_left]
  unfold eckey_pubkey_parse at parsed
  rw [List.headD_cons, if_neg (fun compressed => by omega), if_pos ⟨uncompressed, .inl rfl⟩,
    List.drop_one, List.tail_cons, first, show 33 = 1 + 32 from rfl, ← List.drop_drop, List.drop_one,
    List.tail_cons, second] at parsed
  unfold fe_set_b32_limit at parsed
  by_cases reducedX : valueBE X < P <;> by_cases reducedY : valueBE Y < P <;>
    simp only [reducedX, reducedY, if_true, if_false, reduceCtorEq] at parsed
  -- the hybrid tags are not this one, and the curve equation decides
  simp only [show SECP256K1_TAG_PUBKEY_UNCOMPRESSED ≠ SECP256K1_TAG_PUBKEY_HYBRID_EVEN by decide,
    show SECP256K1_TAG_PUBKEY_UNCOMPRESSED ≠ SECP256K1_TAG_PUBKEY_HYBRID_ODD by decide, or_self, false_and,
    if_false] at parsed
  by_cases onCurve : ge_is_valid_var (valueBE X) (valueBE Y) = true
  · rw [if_pos onCurve, Option.some.injEq] at parsed
    exact ⟨parsed.symm, reducedX, reducedY, onCurve⟩
  · rw [if_neg onCurve] at parsed
    cases parsed

theorem eckey_pubkey_parse_compressed (lengthX : X.length = 32) {tag : UInt8}
    (isTag : tag = SECP256K1_TAG_PUBKEY_EVEN ∨ tag = SECP256K1_TAG_PUBKEY_ODD) {y : Nat}
    (parity : (tag == SECP256K1_TAG_PUBKEY_ODD) = (y % 2 == 1)) (reducedX : valueBE X < P) (reducedY : y < P)
    (onCurve : ge_is_valid_var (valueBE X) y = true) :
    eckey_pubkey_parse (tag :: X) = some (valueBE X, y) := by
  have compressed : (tag :: X).length = 33 := by simp [lengthX]
  unfold eckey_pubkey_parse
  -- rewritten everywhere, also inside the decision procedures of the tests
  rw [List.headD_cons, if_pos ⟨compressed, isTag⟩, List.drop_one, List.tail_cons, fe_set_b32_limit,
    if_pos reducedX]
  dsimp only
  rw [parity, ge_set_xo_var_of_valid reducedY onCurve, if_pos rfl]

theorem eckey_pubkey_serialize_uncompressed_valueBE (lengthX : X.length = 32) (lengthY : Y.length = 32) :
    eckey_pubkey_serialize_uncompressed (valueBE X, valueBE Y) = SECP256K1_TAG_PUBKEY_UNCOMPRESSED :: (X ++ Y) := by
  rw [eckey_pubkey_serialize_uncompressed, fe_get_b32_valueBE lengthX, fe_get_b32_valueBE lengthY]

end Points

end Elements.secp256k1
