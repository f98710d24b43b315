import Elements.Algebra.Polymod
import Elements.Wire.Decoder

/-! `blech32.cpp`: the blech32 and blech32m encodings of confidential addresses.

Blech32 is bech32 with a register of twelve symbols instead of six, so a checksum of twelve
characters, and strings of up to 1000 characters. A `std::string` is its bytes. `PolyMod` runs
the register of `Polymod` with the top symbol at bit 55; `CreateChecksum` reads off the
register left by twelve zero symbols, XORed with the encoding's constant, so that reading those
symbols instead leaves the constant, which is what `VerifyChecksum` tests. -/

namespace Elements.blech32

open Wire

abbrev data := List UInt8

inductive Encoding
  | INVALID
  | BLECH32
  | BLECH32M
  deriving DecidableEq, Repr

def CHARSET : List UInt8 :=
  [113, 112, 122, 114, 121, 57, 120, 56, 103, 102, 50, 116, 118, 100, 119, 48,
   115, 51, 106, 110, 53, 52, 107, 104, 99, 101, 54, 109, 117, 97, 55, 108]

def CHARSET_REV : List Int :=
  [-1, -1, -1, -1, -1, -1, -1, -1, -1, -1, -1, -1, -1, -1, -1, -1,
   -1, -1, -1, -1, -1, -1, -1, -1, -1, -1, -1, -1, -1, -1, -1, -1,
   -1, -1, -1, -1, -1, -1, -1, -1, -1, -1, -1, -1, -1, -1, -1, -1,
   15, -1, 10, 17, 21, 20, 26, 30, 7, 5, -1, -1, -1, -1, -1, -1,
   -1, 29, -1, 24, 13, 25, 9, 8, 23, -1, 18, 22, 31, 27, 19, -1,
   1, 0, 3, 16, 11, 28, 12, 14, 6, 4, 2, -1, -1, -1, -1, -1,
   -1, 29, -1, 24, 13, 25, 9, 8, 23, -1, 18, 22, 31, 27, 19, -1,
   1, 0, 3, 16, 11, 28, 12, 14, 6, 4, 2, -1, -1, -1, -1, -1]

/-- The assert that `encoding` is `BLECH32` or `BLECH32M` is not modelled. -/
def EncodingConstant (encoding : Encoding) : UInt64 :=
  if encoding = .BLECH32 then 1 else 0x455972a3350f7a1

def Cat (x y : data) : data := x ++ y

/-- One pass of the loop of `PolyMod`. -/
def polyModStep (c : UInt64) (v_i : UInt8) : UInt64 :=
  let c0 : UInt8 := (c >>> 55).toUInt8
  let c := ((c &&& 0x7fffffffffffff) <<< 5) ^^^ v_i.toUInt64
  let c := if c0 &&& 1 ≠ 0 then c ^^^ 0x7d52fba40bd886 else c
  let c := if c0 &&& 2 ≠ 0 then c ^^^ 0x5e8dbf1a03950c else c
  let c := if c0 &&& 4 ≠ 0 then c ^^^ 0x1c3a3c74072a18 else c
  let c := if c0 &&& 8 ≠ 0 then c ^^^ 0x385d72fa0e5139 else c
  if c0 &&& 16 ≠ 0 then c ^^^ 0x7093e5a608865b else c

def PolyMod (v : data) : UInt64 := v.foldl polyModStep 1

def LowerCase (c : UInt8) : UInt8 :=
  if c ≥ 'A'.toUInt8 ∧ c ≤ 'Z'.toUInt8 then c - 'A'.toUInt8 + 'a'.toUInt8 else c

/-- `ret[i] = c >> 5` for each character, then `ret[hrp.size()] = 0`, then
`ret[i + hrp.size() + 1] = c & 0x1f`. -/
def ExpandHRP (hrp : Bytes) : data := hrp.map (fun c : UInt8 => c >>> 5) ++ [0] ++ hrp.map (fun c : UInt8 => c &&& 0x1f)

def VerifyChecksum (hrp : Bytes) (values : data) : Encoding :=
  let check := PolyMod (Cat (ExpandHRP hrp) values)
  if check = EncodingConstant .BLECH32 then .BLECH32
  else if check = EncodingConstant .BLECH32M then .BLECH32M
  else .INVALID

def CreateChecksum (encoding : Encoding) (hrp : Bytes) (values : data) : data :=
  -- `enc.resize(enc.size() + 12)` appends twelve zeros
  let enc := Cat (ExpandHRP hrp) values ++ List.replicate 12 0
  let mod := PolyMod enc ^^^ EncodingConstant encoding
  (List.range 12).map fun i => ((mod >>> (5 * (11 - i)).toUInt64) &&& 31).toUInt8

/-- The assert that `hrp` has no uppercase character is not modelled. `CHARSET[c]` is read only
for values below 32 in what is proved here. -/
def Encode (encoding : Encoding) (hrp : Bytes) (values : data) : Bytes :=
  let checksum := CreateChecksum encoding hrp values
  let combined := Cat values checksum
  hrp ++ ['1'.toUInt8] ++ combined.map fun c => CHARSET.getD c.toNat 0

structure DecodeResult where
  encoding : Encoding
  hrp : Bytes
  data : data
  deriving DecidableEq, Repr

/-- `DecodeResult()`, what a failed `Decode` returns. -/
instance : Inhabited DecodeResult := ⟨⟨.INVALID, [], []⟩⟩

/-- The first loop of `Decode`: whether lower and upper case letters occur, or `none` for a
character outside 33..126. -/
def scanCase (lower upper : Bool) : Bytes → Option (Bool × Bool)
  | [] => some (lower, upper)
  | c :: rest =>
      if c ≥ 'a'.toUInt8 ∧ c ≤ 'z'.toUInt8 then scanCase true upper rest
      else if c ≥ 'A'.toUInt8 ∧ c ≤ 'Z'.toUInt8 then scanCase lower true rest
      else if c < 33 ∨ c > 126 then none
      else scanCase lower upper rest

/-- `std::string::rfind`: the index of the last occurrence of `ch`, `none` for `npos`. -/
def rfind (str : Bytes) (ch : UInt8) : Option Nat :=
  match str with
  | [] => none
  | c :: rest =>
      match rfind rest ch with
      | some i => some (i + 1)
      | none => if c = ch then some 0 else none

/-- `int8_t rev = CHARSET_REV[c]`, or `none` where it is `-1`. -/
def revOf (c : UInt8) : Option UInt8 :=
  let rev := CHARSET_REV.getD c.toNat (-1)
  if rev = -1 then none else some (UInt8.ofNat rev.toNat)

def Decode (str : Bytes) : DecodeResult :=
  match scanCase false false str with
  | none => default
  | some (lower, upper) =>
      if lower ∧ upper then default
      else
        match rfind str '1'.toUInt8 with
        | none => default
        | some pos =>
            if str.length > 1000 ∨ pos = 0 ∨ pos + 13 > str.length then default
            else
              match (str.drop (pos + 1)).mapM revOf with
              | none => default
              | some values =>
                  let hrp := (str.take pos).map LowerCase
                  let result := VerifyChecksum hrp values
                  if result = .INVALID then default
                  else ⟨result, hrp, values.take (values.length - 12)⟩

/-- The inverse of `LowerCase` on letters, to state the all-uppercase form of a string. -/
def UpperCase (c : UInt8) : UInt8 :=
  if c ≥ 'a'.toUInt8 ∧ c ≤ 'z'.toUInt8 then c - 'a'.toUInt8 + 'A'.toUInt8 else c

/-- The constants `PolyMod` XORs in for the bits of the symbol shifted out. -/
def generatorMultiples : List Nat :=
  [0x7d52fba40bd886, 0x5e8dbf1a03950c, 0x1c3a3c74072a18, 0x385d72fa0e5139, 0x7093e5a608865b]

theorem generatorMultiples_lt : ∀ g ∈ generatorMultiples, g < 2 ^ (55 + 5) := by decide

theorem toNat_ite_xor (p : Prop) [Decidable p] (c g : UInt64) :
    (if p then c ^^^ g else c).toNat = c.toNat ^^^ (if p then g.toNat else 0) := by
  split <;> simp [UInt64.toNat_xor]

theorem and_two_pow_ne_zero (c0 : UInt8) (i : Nat) (small : i < 8) :
    c0 &&& UInt8.ofNat (2 ^ i) ≠ 0 ↔ c0.toNat.testBit i := by
  have power : (UInt8.ofNat (2 ^ i)).toNat = 2 ^ i := by
    rw [UInt8.toNat_ofNat', Nat.mod_eq_of_lt (Nat.pow_lt_pow_right (by decide) small)]
  rw [ne_eq, ← UInt8.toNat_inj, UInt8.toNat_and, power, Nat.and_two_pow]
  cases c0.toNat.testBit i <;> simp

theorem toNat_polyModStep (c : UInt64) (v_i : UInt8) :
    (polyModStep c v_i).toNat = Polymod.step 55 generatorMultiples c.toNat v_i.toNat := by
  -- the register moved up a symbol, with `v_i` read in: nothing is cut off at 64 bits
  have shiftedIn : (((c &&& 0x7fffffffffffff) <<< 5) ^^^ v_i.toUInt64).toNat =
      (c.toNat &&& (2 ^ 55 - 1)) <<< 5 ^^^ v_i.toNat := by
    have shifted : (c.toNat &&& (2 ^ 55 - 1)) <<< 5 < 2 ^ 64 :=
      lt_of_lt_of_le (Nat.shiftLeft_lt (Nat.and_lt_two_pow (n := 55) _ (by decide))) (by decide)
    rw [UInt64.toNat_xor, UInt64.toNat_shiftLeft, UInt64.toNat_and, UInt8.toNat_toUInt64,
      show (0x7fffffffffffff : UInt64).toNat = 2 ^ 55 - 1 from rfl, show (5 : UInt64).toNat % 64 = 5 from rfl,
      Nat.mod_eq_of_lt shifted]
  -- the five tests read bits 0..4 of the symbol shifted out, which `feedback` reads in turn
  have top : ((c >>> 55).toUInt8).toNat = (c.toNat >>> 55) % 2 ^ 8 := by
    simp [UInt64.toNat_toUInt8, UInt64.toNat_shiftRight]
  have bits : ∀ i < 8, ((c >>> 55).toUInt8 &&& UInt8.ofNat (2 ^ i) ≠ 0 ↔
      ((c.toNat >>> 55) % 2 ^ 8).testBit i) := fun i small => by
    rw [and_two_pow_ne_zero _ i small, top]
  have low : Polymod.feedback generatorMultiples ((c.toNat >>> 55) % 2 ^ 8) =
      Polymod.feedback generatorMultiples (c.toNat >>> 55) := Polymod.feedback_mod (by decide) _
  unfold polyModStep Polymod.step
  simp only [toNat_ite_xor, shiftedIn, ← low,
    show (1 : UInt8) = UInt8.ofNat (2 ^ 0) from rfl, show (2 : UInt8) = UInt8.ofNat (2 ^ 1) from rfl,
    show (4 : UInt8) = UInt8.ofNat (2 ^ 2) from rfl, show (8 : UInt8) = UInt8.ofNat (2 ^ 3) from rfl,
    show (16 : UInt8) = UInt8.ofNat (2 ^ 4) from rfl, bits 0 (by decide), bits 1 (by decide),
    bits 2 (by decide), bits 3 (by decide), bits 4 (by decide)]
  simp only [Polymod.feedback, generatorMultiples, Nat.testBit_shiftRight, Nat.xor_assoc, Nat.xor_zero]
  rfl

theorem toNat_PolyMod (v : data) : (PolyMod v).toNat = Polymod.run 55 generatorMultiples 1 (v.map UInt8.toNat) := by
  suffices from_any : ∀ c : UInt64, (v.foldl polyModStep c).toNat =
      Polymod.run 55 generatorMultiples c.toNat (v.map UInt8.toNat) from from_any 1
  induction v with
  | nil => intro c; rfl
  | cons v_i rest ih =>
      intro c
      rw [List.foldl_cons, ih, List.map_cons, Polymod.run_cons, toNat_polyModStep]

theorem PolyMod_lt (v : data) : (PolyMod v).toNat < 2 ^ 60 := by
  rw [toNat_PolyMod]
  apply Polymod.run_lt generatorMultiples_lt (by decide)
  intro symbol member
  obtain ⟨byte, -, rfl⟩ := List.mem_map.mp member
  exact lt_trans byte.toNat_lt (by decide)

theorem toNat_EncodingConstant_lt (encoding : Encoding) : (EncodingConstant encoding).toNat < 2 ^ 60 := by
  unfold EncodingConstant
  split <;> decide

theorem CreateChecksum_eq_groups (encoding : Encoding) (hrp : Bytes) (values : data) :
    (CreateChecksum encoding hrp values).map UInt8.toNat =
      Polymod.groups 12 (PolyMod (Cat (ExpandHRP hrp) values ++ List.replicate 12 0) ^^^ EncodingConstant encoding).toNat := by
  unfold CreateChecksum Polymod.groups
  rw [List.map_map]
  apply List.map_congr_left
  intro i member
  have below := List.mem_range.mp member
  have shift : ((5 * (11 - i)).toUInt64).toNat % 64 = 5 * (12 - 1 - i) := by
    rw [Nat.toUInt64_eq, UInt64.toNat_ofNat', Nat.mod_eq_of_lt (show 5 * (11 - i) < 2 ^ 64 by omega),
      Nat.mod_eq_of_lt (show 5 * (11 - i) < 64 by omega)]
  have symbol : (PolyMod (Cat (ExpandHRP hrp) values ++ List.replicate 12 0) ^^^ EncodingConstant encoding).toNat >>>
      (5 * (12 - 1 - i)) &&& 31 < 2 ^ 8 :=
    lt_trans (Nat.and_lt_two_pow (n := 5) _ (by decide)) (by decide)
  simp only [Function.comp_apply, UInt64.toNat_toUInt8, UInt64.toNat_and, UInt64.toNat_shiftRight, shift,
    show (31 : UInt64).toNat = 31 from rfl, Nat.mod_eq_of_lt symbol]

theorem VerifyChecksum_CreateChecksum {encoding : Encoding} (valid : encoding ≠ .INVALID) (hrp : Bytes)
    (values : data) : VerifyChecksum hrp (values ++ CreateChecksum encoding hrp values) = encoding := by
  -- on the register: the message, then either twelve zeros or the twelve checksum symbols
  set message := (Cat (ExpandHRP hrp) values).map UInt8.toNat
  set zeros := Polymod.run 55 generatorMultiples 1 (message ++ List.replicate 12 0)
  have padded : (PolyMod (Cat (ExpandHRP hrp) values ++ List.replicate 12 0)).toNat = zeros := by
    rw [toNat_PolyMod, List.map_append, List.map_replicate]
    rfl
  have constant : (PolyMod (Cat (ExpandHRP hrp) (values ++ CreateChecksum encoding hrp values))).toNat =
      (EncodingConstant encoding).toNat := by
    rw [toNat_PolyMod, Cat, ← List.append_assoc, List.map_append, CreateChecksum_eq_groups, UInt64.toNat_xor,
      padded, ← Cat, Polymod.run_append]
    have leftByZeros : Polymod.run 55 generatorMultiples (Polymod.run 55 generatorMultiples 1 message)
        (List.replicate 12 0) < 2 ^ (5 * 12) := by
      rw [← Polymod.run_append]
      exact lt_of_eq_of_lt padded.symm (PolyMod_lt _)
    rw [show zeros = Polymod.run 55 generatorMultiples (Polymod.run 55 generatorMultiples 1 message)
        (List.replicate 12 0) from Polymod.run_append ..]
    exact Polymod.run_groups _ (by decide) (toNat_EncodingConstant_lt encoding) leftByZeros
  have checked := UInt64.toNat_inj.mp constant
  unfold VerifyChecksum
  rw [checked]
  cases encoding with
  | INVALID => exact absurd rfl valid
  | BLECH32 => rfl
  | BLECH32M => rfl

theorem charset_facts : ∀ v : Fin 32, let ch := CHARSET.getD v 0
    revOf ch = some (UInt8.ofNat v) ∧ revOf (UpperCase ch) = some (UInt8.ofNat v) ∧
    ch ≠ '1'.toUInt8 ∧ UpperCase ch ≠ '1'.toUInt8 ∧
    (33 ≤ ch ∧ ch ≤ 126 ∧ ¬(ch ≥ 'A'.toUInt8 ∧ ch ≤ 'Z'.toUInt8)) ∧
    (33 ≤ UpperCase ch ∧ UpperCase ch ≤ 126 ∧ ¬(UpperCase ch ≥ 'a'.toUInt8 ∧ UpperCase ch ≤ 'z'.toUInt8)) := by
  decide

theorem charset_facts_of_lt {v : UInt8} (small : v.toNat < 32) :
    let ch := CHARSET.getD v.toNat 0
    revOf ch = some v ∧ revOf (UpperCase ch) = some v ∧
    ch ≠ '1'.toUInt8 ∧ UpperCase ch ≠ '1'.toUInt8 ∧
    (33 ≤ ch ∧ ch ≤ 126 ∧ ¬(ch ≥ 'A'.toUInt8 ∧ ch ≤ 'Z'.toUInt8)) ∧
    (33 ≤ UpperCase ch ∧ UpperCase ch ≤ 126 ∧ ¬(UpperCase ch ≥ 'a'.toUInt8 ∧ UpperCase ch ≤ 'z'.toUInt8)) := by
  have facts := charset_facts ⟨v.toNat, small⟩
  simp only [UInt8.ofNat_toNat] at facts
  exact facts

theorem scanCase_of_not_upper {str : Bytes}
    (accepted : ∀ c ∈ str, 33 ≤ c ∧ c ≤ 126 ∧ ¬(c ≥ 'A'.toUInt8 ∧ c ≤ 'Z'.toUInt8)) (lower : Bool) :
    ∃ lower', scanCase lower false str = some (lower', false) := by
  induction str generalizing lower with
  | nil => exact ⟨lower, rfl⟩
  | cons c rest ih =>
      obtain ⟨above, below, notUpper⟩ := accepted c (List.mem_cons_self ..)
      have inRange : ¬(c < 33 ∨ c > 126) := by
        rw [not_or]
        exact ⟨UInt8.not_lt.mpr above, UInt8.not_lt.mpr below⟩
      have restAccepted := fun c' member => accepted c' (List.mem_cons_of_mem c member)
      unfold scanCase
      by_cases lowerLetter : c ≥ 'a'.toUInt8 ∧ c ≤ 'z'.toUInt8
      · rw [if_pos lowerLetter]
        exact ih restAccepted true
      · rw [if_neg lowerLetter, if_neg notUpper, if_neg inRange]
        exact ih restAccepted lower

theorem scanCase_of_not_lower {str : Bytes}
    (accepted : ∀ c ∈ str, 33 ≤ c ∧ c ≤ 126 ∧ ¬(c ≥ 'a'.toUInt8 ∧ c ≤ 'z'.toUInt8)) (upper : Bool) :
    ∃ upper', scanCase false upper str = some (false, upper') := by
  induction str generalizing upper with
  | nil => exact ⟨upper, rfl⟩
  | cons c rest ih =>
      obtain ⟨above, below, notLower⟩ := accepted c (List.mem_cons_self ..)
      have inRange : ¬(c < 33 ∨ c > 126) := by
        rw [not_or]
        exact ⟨UInt8.not_lt.mpr above, UInt8.not_lt.mpr below⟩
      have restAccepted := fun c' member => accepted c' (List.mem_cons_of_mem c member)
      unfold scanCase
      rw [if_neg notLower]
      by_cases upperLetter : c ≥ 'A'.toUInt8 ∧ c ≤ 'Z'.toUInt8
      · rw [if_pos upperLetter]
        exact ih restAccepted true
      · rw [if_neg upperLetter, if_neg inRange]
        exact ih restAccepted upper

theorem rfind_eq_none {str : Bytes} {ch : UInt8} (absent : ch ∉ str) : rfind str ch = none := by
  induction str with
  | nil => rfl
  | cons c rest ih =>
      rw [List.mem_cons, not_or] at absent
      rw [rfind, ih absent.2, if_neg (Ne.symm absent.1)]

theorem rfind_append (front : Bytes) {back : Bytes} {ch : UInt8} (absent : ch ∉ back) :
    rfind (front ++ ch :: back) ch = some front.length := by
  induction front with
  | nil => rw [List.nil_append, rfind, rfind_eq_none absent, if_pos rfl, List.length_nil]
  | cons c rest ih => rw [List.cons_append, rfind, ih, List.length_cons]

theorem mapM_revOf {symbols : data} (g : UInt8 → UInt8) (reads : ∀ v ∈ symbols, revOf (g v) = some v) :
    (symbols.map g).mapM revOf = some symbols := by
  induction symbols with
  | nil => rfl
  | cons v rest ih =>
      rw [List.map_cons, List.mapM_cons, reads v (List.mem_cons_self ..),
        ih fun v' member => reads v' (List.mem_cons_of_mem v member)]
      rfl

theorem Decode_accepts {hrp' chars : Bytes} {values : data} {encoding : Encoding} {lower upper : Bool}
    (scanned : scanCase false false (hrp' ++ '1'.toUInt8 :: chars) = some (lower, upper))
    (oneCase : ¬(lower ∧ upper)) (noSeparator : '1'.toUInt8 ∉ chars) (nonempty : hrp' ≠ [])
    (short : hrp'.length + 1 + chars.length ≤ 1000) (checksummed : 12 ≤ chars.length)
    (decoded : chars.mapM revOf = some values) (verified : VerifyChecksum (hrp'.map LowerCase) values = encoding)
    (valid : encoding ≠ .INVALID) :
    Decode (hrp' ++ '1'.toUInt8 :: chars) = ⟨encoding, hrp'.map LowerCase, values.take (values.length - 12)⟩ := by
  have sized : ¬((hrp' ++ '1'.toUInt8 :: chars).length > 1000 ∨ hrp'.length = 0 ∨
      hrp'.length + 13 > (hrp' ++ '1'.toUInt8 :: chars).length) := by
    have := List.length_pos_iff.mpr nonempty
    simp only [List.length_append, List.length_cons]
    omega
  have rest : (hrp' ++ '1'.toUInt8 :: chars).drop (hrp'.length + 1) = chars := by simp
  have front : (hrp' ++ '1'.toUInt8 :: chars).take hrp'.length = hrp' := by simp
  unfold Decode
  simp only [scanned, oneCase, if_false, rfind_append hrp' noSeparator, sized, rest, decoded, front, verified, valid]

theorem LowerCase_of_not_upper {c : UInt8} (notUpper : ¬(c ≥ 'A'.toUInt8 ∧ c ≤ 'Z'.toUInt8)) : LowerCase c = c :=
  if_neg notUpper

set_option maxRecDepth 20000 in
theorem LowerCase_UpperCase : ∀ c : UInt8, ¬(c ≥ 'A'.toUInt8 ∧ c ≤ 'Z'.toUInt8) → LowerCase (UpperCase c) = c := by
  decide

set_option maxRecDepth 20000 in
theorem UpperCase_accepted : ∀ c : UInt8, 33 ≤ c ∧ c ≤ 126 →
    33 ≤ UpperCase c ∧ UpperCase c ≤ 126 ∧ ¬(UpperCase c ≥ 'a'.toUInt8 ∧ UpperCase c ≤ 'z'.toUInt8) := by
  decide

theorem CHARSET_ne_separator (n : Nat) : CHARSET.getD n 0 ≠ '1'.toUInt8 := by
  by_cases small : n < 32
  · exact (charset_facts ⟨n, small⟩).2.2.1
  · rw [List.getD_eq_default _ _ (by simp [CHARSET]; omega)]
    decide

theorem Encode_eq (encoding : Encoding) (hrp : Bytes) (values : data) :
    Encode encoding hrp values =
      hrp ++ '1'.toUInt8 :: (values ++ CreateChecksum encoding hrp values).map fun c => CHARSET.getD c.toNat 0 := by
  simp [Encode, Cat]

theorem length_CreateChecksum (encoding : Encoding) (hrp : Bytes) (values : data) :
    (CreateChecksum encoding hrp values).length = 12 := by
  simp [CreateChecksum]

theorem CreateChecksum_lt {encoding : Encoding} {hrp : Bytes} {values : data} :
    ∀ v ∈ CreateChecksum encoding hrp values, v.toNat < 32 := by
  intro v member
  apply Polymod.groups_lt
  rw [← CreateChecksum_eq_groups]
  exact List.mem_map_of_mem member

theorem Decode_Encode_nil_hrp (encoding : Encoding) (values : data) :
    Decode (Encode encoding [] values) = default := by
  have noSeparator : '1'.toUInt8 ∉ (values ++ CreateChecksum encoding [] values).map fun c => CHARSET.getD c.toNat 0 := by
    rw [List.mem_map]
    rintro ⟨c, -, separator⟩
    exact CHARSET_ne_separator c.toNat separator
  have first := rfind_append [] noSeparator
  rw [List.nil_append] at first
  rw [Encode_eq, List.nil_append]
  unfold Decode
  split
  · rfl
  · split
    · rfl
    · rw [first]
      simp

/-- The empty human-readable part with the single value `0` is not read back. -/
theorem Decode_Encode_empty_hrp : Decode (Encode .BLECH32 [] [0]) ≠ ⟨.BLECH32, [], [0]⟩ := by
  rw [Decode_Encode_nil_hrp]
  decide

theorem Decode_map_Encode (f : UInt8 → UInt8) {encoding : Encoding} {hrp : Bytes} {values : data}
    (valid : encoding ≠ .INVALID) (nonempty : hrp ≠ []) (symbols : ∀ v ∈ values, v.toNat < 32)
    (short : hrp.length + 1 + values.length + 12 ≤ 1000) (separator : f '1'.toUInt8 = '1'.toUInt8)
    (reads : ∀ v : UInt8, v.toNat < 32 →
      revOf (f (CHARSET.getD v.toNat 0)) = some v ∧ f (CHARSET.getD v.toNat 0) ≠ '1'.toUInt8)
    (restores : (hrp.map f).map LowerCase = hrp)
    (oneCase : ∃ lower upper, scanCase false false ((Encode encoding hrp values).map f) = some (lower, upper) ∧
      ¬(lower ∧ upper)) :
    Decode ((Encode encoding hrp values).map f) = ⟨encoding, hrp, values⟩ := by
  -- the symbols after the separator: the values and the checksum, all below 32
  set combined := values ++ CreateChecksum encoding hrp values with combined_def
  have small : ∀ v ∈ combined, v.toNat < 32 := by
    intro v member
    rcases List.mem_append.mp member with value | checksum
    · exact symbols v value
    · exact CreateChecksum_lt v checksum
  have lengthCombined : combined.length = values.length + 12 := by
    rw [combined_def, List.length_append, length_CreateChecksum]
  have taken : combined.take (combined.length - 12) = values := by
    rw [lengthCombined, Nat.add_sub_cancel, combined_def, List.take_left]
  have mapped : (Encode encoding hrp values).map f =
      hrp.map f ++ '1'.toUInt8 :: combined.map (fun c => f (CHARSET.getD c.toNat 0)) := by
    rw [Encode_eq, List.map_append, List.map_cons, List.map_map, separator]
    rfl
  have noSeparator : '1'.toUInt8 ∉ combined.map (fun c => f (CHARSET.getD c.toNat 0)) := by
    rw [List.mem_map]
    rintro ⟨v, member, found⟩
    exact (reads v (small v member)).2 found
  have lengthChars : (combined.map fun c => f (CHARSET.getD c.toNat 0)).length = values.length + 12 := by
    rw [List.length_map, lengthCombined]
  obtain ⟨lower, upper, scanned, single⟩ := oneCase
  rw [mapped] at scanned ⊢
  rw [Decode_accepts scanned single noSeparator (by simpa using nonempty)
    (by rw [List.length_map, lengthChars]; omega) (by rw [lengthChars]; omega)
    (mapM_revOf _ fun v member => (reads v (small v member)).1)
    (by rw [restores]; exact VerifyChecksum_CreateChecksum valid hrp values) valid, restores, taken]

/-- Blech32 and blech32m strings decode to what was encoded, in lower and in upper case, for a
nonempty human-readable part of characters in 33..126 with no uppercase letter, and 5-bit values
that fit 1000 characters; the register of the checksum stays below `2 ^ 60` and the checksum
verifies. -/
theorem blech32_roundTrip :
    (∀ v : data, (PolyMod v).toNat < 2 ^ 60) ∧
    (∀ (encoding : Encoding) (hrp : Bytes) (values : data), (encoding = .BLECH32 ∨ encoding = .BLECH32M) →
      VerifyChecksum hrp (values ++ CreateChecksum encoding hrp values) = encoding) ∧
    ∀ (encoding : Encoding) (hrp : Bytes) (values : data), (encoding = .BLECH32 ∨ encoding = .BLECH32M) →
      hrp ≠ [] → (∀ c ∈ hrp, 33 ≤ c ∧ c ≤ 126 ∧ ¬(c ≥ 'A'.toUInt8 ∧ c ≤ 'Z'.toUInt8)) →
      (∀ v ∈ values, v.toNat < 32) → hrp.length + 1 + values.length + 12 ≤ 1000 →
      Decode (Encode encoding hrp values) = ⟨encoding, hrp, values⟩ ∧
      Decode ((Encode encoding hrp values).map UpperCase) = ⟨encoding, hrp, values⟩ := by
  have validOf : ∀ encoding : Encoding, (encoding = .BLECH32 ∨ encoding = .BLECH32M) → encoding ≠ .INVALID := by
    rintro encoding (rfl | rfl) <;> decide
  refine ⟨PolyMod_lt, fun encoding hrp values which => VerifyChecksum_CreateChecksum (validOf encoding which) hrp values, ?_⟩
  intro encoding hrp values which nonempty lowercase symbols short
  -- every character of the encoding: the human-readable part, the separator, or a symbol's
  have characters : ∀ c ∈ Encode encoding hrp values, c ∈ hrp ∨ c = '1'.toUInt8 ∨
      ∃ v : UInt8, v.toNat < 32 ∧ c = CHARSET.getD v.toNat 0 := by
    intro c member
    rw [Encode_eq] at member
    rcases List.mem_append.mp member with inHrp | inRest
    · exact .inl inHrp
    rcases List.mem_cons.mp inRest with separator | inChars
    · exact .inr (.inl separator)
    obtain ⟨v, inCombined, rfl⟩ := List.mem_map.mp inChars
    rcases List.mem_append.mp inCombined with value | checksum
    · exact .inr (.inr ⟨v, symbols v value, rfl⟩)
    · exact .inr (.inr ⟨v, CreateChecksum_lt v checksum, rfl⟩)
  constructor
  · -- the lowercase string
    have accepted : ∀ c ∈ Encode encoding hrp values, 33 ≤ c ∧ c ≤ 126 ∧ ¬(c ≥ 'A'.toUInt8 ∧ c ≤ 'Z'.toUInt8) := by
      intro c member
      rcases characters c member with inHrp | rfl | ⟨v, small, rfl⟩
      · exact lowercase c inHrp
      · decide
      · exact (charset_facts_of_lt small).2.2.2.2.1
    obtain ⟨lower', scanned⟩ := scanCase_of_not_upper accepted false
    have restores : (hrp.map id).map LowerCase = hrp := by
      rw [List.map_id]
      conv_rhs => rw [← List.map_id hrp]
      exact List.map_congr_left fun c member => LowerCase_of_not_upper (lowercase c member).2.2
    have decoded := Decode_map_Encode id (validOf encoding which) nonempty symbols short rfl
      (fun v small => ⟨(charset_facts_of_lt small).1, (charset_facts_of_lt small).2.2.1⟩) restores
      ⟨lower', false, by rw [List.map_id]; exact scanned, by simp⟩
    rwa [List.map_id] at decoded
  · -- the uppercase string
    have accepted : ∀ c ∈ (Encode encoding hrp values).map UpperCase,
        33 ≤ c ∧ c ≤ 126 ∧ ¬(c ≥ 'a'.toUInt8 ∧ c ≤ 'z'.toUInt8) := by
      intro c member
      obtain ⟨c', member', rfl⟩ := List.mem_map.mp member
      rcases characters c' member' with inHrp | rfl | ⟨v, small, rfl⟩
      · exact UpperCase_accepted c' ⟨(lowercase c' inHrp).1, (lowercase c' inHrp).2.1⟩
      · decide
      · exact (charset_facts_of_lt small).2.2.2.2.2
    obtain ⟨upper', scanned⟩ := scanCase_of_not_lower accepted false
    have restores : (hrp.map UpperCase).map LowerCase = hrp := by
      rw [List.map_map]
      conv_rhs => rw [← List.map_id hrp]
      exact List.map_congr_left fun c member => LowerCase_UpperCase c (lowercase c member).2.2
    exact Decode_map_Encode UpperCase (validOf encoding which) nonempty symbols short (by decide)
      (fun v small => ⟨(charset_facts_of_lt small).2.1, (charset_facts_of_lt small).2.2.2.1⟩) restores
      ⟨false, upper', scanned, by simp⟩

end Elements.blech32
