import Elements.Serialize.VarInt
import Elements.Crypto.PubKey
import Elements.Primitives.WireFormat
import Elements.ConfidentialValidation
import Elements.Script.Script

/-! `compressor.h` and `compressor.cpp`: the compact encoding of the outputs kept in the UTXO
set. An amount is written by its decimal exponent and its leading digits; six script templates
(pay to a key hash or a script hash, pay to a compressed or an uncompressed key) are written as
their payload alone, behind a tag below `nSpecialScripts`, and every other script behind its
length plus `nSpecialScripts`. In Elements mode the amount carries a type byte, explicit or
confidential, and the asset follows in its own encoding. -/

namespace Elements

open Wire Wire.Decoder secp256k1

/-- The loop of `CompressAmount`: trailing zeros taken off `n`, at most nine of them. -/
def compressAmountLoop (n : UInt64) (e : Nat) : UInt64 × Nat :=
  if n % 10 = 0 ∧ e < 9 then compressAmountLoop (n / 10) (e + 1) else (n, e)
termination_by 9 - e

/-- `CompressAmount`: with `e` zeros taken off, up to nine, the last digit `d` of what is left
and the rest `n`, as `1 + 10 * (9 * n + d - 1) + e`; after nine zeros, `1 + 10 * (n - 1) + 9`. -/
def CompressAmount (n : UInt64) : UInt64 :=
  if n = 0 then 0
  else
    let stripped := compressAmountLoop n 0
    let n := stripped.1
    let e := stripped.2
    if e < 9 then
      -- the source asserts `1 <= d <= 9`: the loop stopped on a nonzero digit
      let d := n % 10
      let n := n / 10
      1 + (n * 9 + d - 1) * 10 + UInt64.ofNat e
    else 1 + (n - 1) * 10 + 9

/-- The loop of `DecompressAmount`: `e` times ten. -/
def decompressAmountLoop (n : UInt64) : Nat → UInt64
  | 0 => n
  | e + 1 => decompressAmountLoop (n * 10) e

def DecompressAmount (x : UInt64) : UInt64 :=
  if x = 0 then 0
  else
    let x := x - 1
    let e := x % 10
    let x := x / 10
    let n :=
      if e < 9 then
        let d := x % 9 + 1
        let x := x / 9
        x * 10 + d
      else x + 1
    decompressAmountLoop n e.toNat

theorem compressAmountLoop_shift (n : UInt64) (e : Nat) :
    ∃ t, (compressAmountLoop n e).2 = e + t ∧ n.toNat = (compressAmountLoop n e).1.toNat * 10 ^ t := by
  fun_induction compressAmountLoop n e with
  | case1 n e strip ih =>
      obtain ⟨t, exponent, value⟩ := ih
      have digit : n.toNat % 10 = 0 := by simpa using congrArg UInt64.toNat strip.1
      refine ⟨t + 1, by omega, ?_⟩
      rw [pow_succ, ← Nat.mul_assoc, ← value, UInt64.toNat_div]
      simp only [UInt64.reduceToNat]
      omega
  | case2 n e stop => exact ⟨0, by simp, by simp⟩

theorem compressAmountLoop_stop (n : UInt64) (e : Nat) (le : e ≤ 9) :
    (compressAmountLoop n e).2 ≤ 9 ∧
      ((compressAmountLoop n e).2 < 9 → (compressAmountLoop n e).1.toNat % 10 ≠ 0) := by
  fun_induction compressAmountLoop n e with
  | case1 n e strip ih => exact ih (by omega)
  | case2 n e stop =>
      refine ⟨le, fun below zero => stop ⟨?_, below⟩⟩
      apply UInt64.toNat_inj.mp
      simpa using zero

theorem toNat_decompressAmountLoop (n : UInt64) (e : Nat) (fits : n.toNat * 10 ^ e < 2 ^ 64) :
    (decompressAmountLoop n e).toNat = n.toNat * 10 ^ e := by
  induction e generalizing n with
  | zero => simp [decompressAmountLoop]
  | succ e ih =>
      have timesTen : (n * 10).toNat = n.toNat * 10 := by
        have : n.toNat * 10 ≤ n.toNat * 10 ^ (e + 1) :=
          Nat.mul_le_mul_left _ (Nat.le_self_pow (Nat.succ_ne_zero e) 10)
        simp only [UInt64.toNat_mul, UInt64.reduceToNat]
        exact Nat.mod_eq_of_lt (by omega)
      rw [decompressAmountLoop, ih _ (by rw [timesTen, Nat.mul_assoc, ← pow_succ']; exact fits), timesTen,
        Nat.mul_assoc, ← pow_succ']

section AmountForms

theorem le_mul_pow_ten (m e : Nat) : m ≤ m * 10 ^ e := Nat.le_mul_of_pos_right m (Nat.pow_pos (by decide))

theorem toNat_CompressAmount {n m : UInt64} {e : Nat} (nonzero : n ≠ 0) (small : n.toNat < 2 ^ 60)
    (strip : compressAmountLoop n 0 = (m, e)) :
    (CompressAmount n).toNat =
      if e < 9 then 1 + (m.toNat / 10 * 9 + m.toNat % 10 - 1) * 10 + e else 1 + (m.toNat - 1) * 10 + 9 := by
  obtain ⟨t, exponent, value⟩ := compressAmountLoop_shift n 0
  have stop := compressAmountLoop_stop n 0 (by omega)
  simp only [strip] at exponent value stop
  have positive : n.toNat ≠ 0 := fun zero => nonzero (UInt64.toNat_inj.mp zero)
  have mantissa := le_mul_pow_ten m.toNat t
  rw [CompressAmount, if_neg nonzero, strip]
  dsimp only
  split_ifs with below
  · have digit := stop.2 below
    simp only [UInt64.toNat_add, UInt64.toNat_mul, UInt64.toNat_sub, UInt64.toNat_div, UInt64.toNat_mod,
      UInt64.toNat_ofNat', UInt64.reduceToNat]
    omega
  · have mantissaPositive : m.toNat ≠ 0 := fun zero => by rw [zero] at value; omega
    simp only [UInt64.toNat_add, UInt64.toNat_mul, UInt64.toNat_sub, UInt64.reduceToNat]
    omega

theorem toNat_DecompressAmount_digits {q d e : Nat} (digit : 1 ≤ d ∧ d ≤ 9) (exponent : e < 9)
    (small : (q * 10 + d) * 10 ^ e < 2 ^ 60) :
    (DecompressAmount (UInt64.ofNat (1 + (q * 9 + d - 1) * 10 + e))).toNat = (q * 10 + d) * 10 ^ e := by
  have mantissa := le_mul_pow_ten (q * 10 + d) e
  have encoded : (UInt64.ofNat (1 + (q * 9 + d - 1) * 10 + e)).toNat = 1 + (q * 9 + d - 1) * 10 + e := by
    rw [UInt64.toNat_ofNat']
    omega
  generalize UInt64.ofNat (1 + (q * 9 + d - 1) * 10 + e) = x at encoded ⊢
  have nonzero : x ≠ 0 := fun zero => by rw [zero, UInt64.toNat_zero] at encoded; omega
  have pred : (x - 1).toNat = (q * 9 + d - 1) * 10 + e := by
    rw [UInt64.toNat_sub_of_le _ _ (UInt64.le_iff_toNat_le.mpr (by simp only [encoded, UInt64.reduceToNat]; omega)),
      encoded]
    simp only [UInt64.reduceToNat]
    omega
  have low : ((x - 1) % 10).toNat = e := by
    rw [UInt64.toNat_mod, pred]
    simp only [UInt64.reduceToNat]
    omega
  have high : ((x - 1) / 10 / 9 * 10 + ((x - 1) / 10 % 9 + 1)).toNat = q * 10 + d := by
    simp only [UInt64.toNat_add, UInt64.toNat_mul, UInt64.toNat_div, UInt64.toNat_mod, pred, UInt64.reduceToNat]
    omega
  have digits : (x - 1) % 10 < 9 := by rw [UInt64.lt_iff_toNat_lt, low]; simpa using exponent
  rw [DecompressAmount, if_neg nonzero]
  dsimp only
  rw [if_pos digits, low, toNat_decompressAmountLoop _ _ (by rw [high]; omega), high]

theorem toNat_DecompressAmount_nines {m : Nat} (positive : 1 ≤ m) (small : m * 10 ^ 9 < 2 ^ 60) :
    (DecompressAmount (UInt64.ofNat (1 + (m - 1) * 10 + 9))).toNat = m * 10 ^ 9 := by
  have mantissa := le_mul_pow_ten m 9
  have encoded : (UInt64.ofNat (1 + (m - 1) * 10 + 9)).toNat = 1 + (m - 1) * 10 + 9 := by
    rw [UInt64.toNat_ofNat']
    omega
  generalize UInt64.ofNat (1 + (m - 1) * 10 + 9) = x at encoded ⊢
  have nonzero : x ≠ 0 := fun zero => by rw [zero, UInt64.toNat_zero] at encoded; omega
  have pred : (x - 1).toNat = (m - 1) * 10 + 9 := by
    rw [UInt64.toNat_sub_of_le _ _ (UInt64.le_iff_toNat_le.mpr (by simp only [encoded, UInt64.reduceToNat]; omega)),
      encoded]
    simp only [UInt64.reduceToNat]
    omega
  have low : ((x - 1) % 10).toNat = 9 := by
    rw [UInt64.toNat_mod, pred]
    simp only [UInt64.reduceToNat]
    omega
  have high : ((x - 1) / 10 + 1).toNat = m := by
    simp only [UInt64.toNat_add, UInt64.toNat_div, pred, UInt64.reduceToNat]
    omega
  have nines : ¬ (x - 1) % 10 < 9 := by rw [UInt64.lt_iff_toNat_lt, low]; simp
  rw [DecompressAmount, if_neg nonzero]
  dsimp only
  rw [if_neg nines, low, toNat_decompressAmountLoop _ _ (by rw [high]; omega), high]

end AmountForms

theorem DecompressAmount_CompressAmount (n : UInt64) (range : (n.toNat : CAmount) ≤ MAX_MONEY) :
    DecompressAmount (CompressAmount n) = n := by
  have bound : (n.toNat : Int) ≤ 2100000000000000 := range
  have small : n.toNat < 2 ^ 60 := by omega
  by_cases zero : n = 0
  · subst zero
    simp [CompressAmount, DecompressAmount]
  cases strip : compressAmountLoop n 0 with
  | mk m e =>
      obtain ⟨t, exponent, value⟩ := compressAmountLoop_shift n 0
      have stop := compressAmountLoop_stop n 0 (by omega)
      simp only [strip, Nat.zero_add] at exponent value stop
      subst exponent
      have mantissa := le_mul_pow_ten m.toNat e
      have compressed := toNat_CompressAmount zero small strip
      apply UInt64.toNat_inj.mp
      by_cases below : e < 9
      · -- the last digit `d` of what is left, and the number `q` before it
        rw [if_pos below] at compressed
        have digit := stop.2 below
        have encoded : CompressAmount n = UInt64.ofNat (1 + (m.toNat / 10 * 9 + m.toNat % 10 - 1) * 10 + e) := by
          apply UInt64.toNat_inj.mp
          rw [compressed, UInt64.toNat_ofNat']
          omega
        rw [encoded, @toNat_DecompressAmount_digits (m.toNat / 10) (m.toNat % 10) e ⟨by omega, by omega⟩ below
          (by rw [Nat.div_add_mod']; omega), Nat.div_add_mod', value]
      · -- nine zeros taken off: `m` is written as it is
        have nine : e = 9 := by omega
        subst nine
        rw [if_neg below] at compressed
        have positive : 1 ≤ m.toNat := by
          rcases Nat.eq_zero_or_pos m.toNat with zero' | positive
          · rw [zero', Nat.zero_mul] at value
            exact absurd (UInt64.toNat_inj.mp (by rw [value]; rfl)) zero
          · exact positive
        have encoded : CompressAmount n = UInt64.ofNat (1 + (m.toNat - 1) * 10 + 9) := by
          apply UInt64.toNat_inj.mp
          rw [compressed, UInt64.toNat_ofNat']
          omega
        rw [encoded, toNat_DecompressAmount_nines positive (by omega), value]

/-- `IsToKeyID`: `OP_DUP OP_HASH160 <20 bytes> OP_EQUALVERIFY OP_CHECKSIG`, and the key hash. -/
def IsToKeyID (script : CScript) : Option Bytes :=
  if script.length = 25 ∧ script.getD 0 0 = OP_DUP ∧ script.getD 1 0 = OP_HASH160 ∧ script.getD 2 0 = 20 ∧
      script.getD 23 0 = OP_EQUALVERIFY ∧ script.getD 24 0 = OP_CHECKSIG then
    some ((script.drop 3).take 20)
  else none

/-- `IsToScriptID`: `OP_HASH160 <20 bytes> OP_EQUAL`, and the script hash. -/
def IsToScriptID (script : CScript) : Option Bytes :=
  if script.length = 23 ∧ script.getD 0 0 = OP_HASH160 ∧ script.getD 1 0 = 20 ∧ script.getD 22 0 = OP_EQUAL then
    some ((script.drop 2).take 20)
  else none

/-- `IsToPubKey`: a push of a compressed key, or of an uncompressed key that is a point of the
curve (an invalid one could not be compressed), then `OP_CHECKSIG`. -/
def IsToPubKey (script : CScript) : Option CPubKey :=
  if script.length = 35 ∧ script.getD 0 0 = 33 ∧ script.getD 34 0 = OP_CHECKSIG ∧
      (script.getD 1 0 = 0x02 ∨ script.getD 1 0 = 0x03) then
    some (CPubKey.Set ((script.drop 1).take 33))
  else if script.length = 67 ∧ script.getD 0 0 = 65 ∧ script.getD 66 0 = OP_CHECKSIG ∧ script.getD 1 0 = 0x04 then
    let pubkey := CPubKey.Set ((script.drop 1).take 65)
    if pubkey.IsFullyValid then some pubkey else none
  else none

/-- `CompressScript`: the template's tag and its payload; an uncompressed key keeps its `x` and
the parity of its `y` in the tag. -/
def CompressScript (script : CScript) : Option Bytes :=
  match IsToKeyID script with
  | some hash => some (0x00 :: hash)
  | none =>
    match IsToScriptID script with
    | some hash => some (0x01 :: hash)
    | none =>
      match IsToPubKey script with
      | none => none
      | some pubkey =>
        let body := (pubkey.vch.drop 1).take 32
        let header := pubkey.vch.getD 0 0
        if header = 0x02 ∨ header = 0x03 then some (header :: body)
        else if header = 0x04 then some ((0x04 ||| (pubkey.vch.getD 64 0 &&& 0x01)) :: body)
        else none

def GetSpecialScriptSize (nSize : Nat) : Nat :=
  if nSize = 0 ∨ nSize = 1 then 20
  else if nSize = 2 ∨ nSize = 3 ∨ nSize = 4 ∨ nSize = 5 then 32
  else 0

/-- `DecompressScript`: the template of tag `nSize` around the payload `in`; `none` where the
source returns `false`, for an unknown tag or an `x` that is not on the curve. -/
def DecompressScript (nSize : Nat) (inp : Bytes) : Option CScript :=
  if nSize = 0x00 then some ([OP_DUP, OP_HASH160, 20] ++ inp.take 20 ++ [OP_EQUALVERIFY, OP_CHECKSIG])
  else if nSize = 0x01 then some ([OP_HASH160, 20] ++ inp.take 20 ++ [OP_EQUAL])
  else if nSize = 0x02 ∨ nSize = 0x03 then some ([33, UInt8.ofNat nSize] ++ inp.take 32 ++ [OP_CHECKSIG])
  else if nSize = 0x04 ∨ nSize = 0x05 then
    match (CPubKey.Set (UInt8.ofNat (nSize - 2) :: inp.take 32)).Decompress with
    | none => none
    | some pubkey => some ([65] ++ pubkey.vch.take 65 ++ [OP_CHECKSIG])
  else none

theorem eq_template {script head tail : Bytes} {k : Nat} (length : script.length = head.length + k + tail.length)
    (front : ∀ i < head.length, script.getD i 0 = head.getD i 0)
    (back : ∀ i < tail.length, script.getD (head.length + k + i) 0 = tail.getD i 0) :
    script = head ++ (script.drop head.length).take k ++ tail := by
  have opening : script.take head.length = head := by
    apply List.ext_getElem (by simp; omega)
    intro i inTake inHead
    have byte := front i inHead
    rw [List.getD_eq_getElem _ _ (by omega), List.getD_eq_getElem _ _ inHead] at byte
    rw [List.getElem_take, byte]
  have closing : script.drop (head.length + k) = tail := by
    apply List.ext_getElem (by simp; omega)
    intro i inDrop inTail
    have byte := back i inTail
    rw [List.getD_eq_getElem _ _ (by omega), List.getD_eq_getElem _ _ inTail] at byte
    rw [List.getElem_drop, byte]
  calc script = script.take head.length ++ ((script.drop head.length).take k ++ (script.drop head.length).drop k) := by
        rw [List.take_append_drop, List.take_append_drop]
    _ = head ++ (script.drop head.length).take k ++ tail := by
        rw [List.drop_drop, opening, closing, List.append_assoc]

theorem IsToKeyID_eq_some {script hash : Bytes} (found : IsToKeyID script = some hash) :
    hash.length = 20 ∧ script = [OP_DUP, OP_HASH160, 20] ++ hash ++ [OP_EQUALVERIFY, OP_CHECKSIG] := by
  unfold IsToKeyID at found
  split_ifs at found with template
  cases found
  obtain ⟨length, dup, hash160, push, equalVerify, checkSig⟩ := template
  refine ⟨by simp; omega, @eq_template script [OP_DUP, OP_HASH160, 20] [OP_EQUALVERIFY, OP_CHECKSIG] 20
    (by simp [length]) (fun i below => ?_) (fun i below => ?_)⟩
  · simp only [List.length_cons, List.length_nil] at below
    interval_cases i <;> simp only [List.getD_cons_zero, List.getD_cons_succ] <;> assumption
  · simp only [List.length_cons, List.length_nil] at below
    interval_cases i <;> simp only [List.length_cons, List.length_nil, Nat.reduceAdd, List.getD_cons_zero,
      List.getD_cons_succ] <;> assumption

theorem IsToScriptID_eq_some {script hash : Bytes} (found : IsToScriptID script = some hash) :
    hash.length = 20 ∧ script = [OP_HASH160, 20] ++ hash ++ [OP_EQUAL] := by
  unfold IsToScriptID at found
  split_ifs at found with template
  cases found
  obtain ⟨length, hash160, push, equal⟩ := template
  refine ⟨by simp; omega, @eq_template script [OP_HASH160, 20] [OP_EQUAL] 20
    (by simp [length]) (fun i below => ?_) (fun i below => ?_)⟩
  · simp only [List.length_cons, List.length_nil] at below
    interval_cases i <;> simp only [List.getD_cons_zero, List.getD_cons_succ] <;> assumption
  · simp only [List.length_cons, List.length_nil] at below
    obtain rfl : i = 0 := by omega
    simp only [List.length_cons, List.length_nil, Nat.reduceAdd, List.getD_cons_zero]
    exact equal

theorem eq_push_template {script : Bytes} {push last : UInt8} {k : Nat} (length : script.length = k + 2)
    (first : script.getD 0 0 = push) (final : script.getD (k + 1) 0 = last) :
    script = [push] ++ (script.drop 1).take k ++ [last] := by
  apply @eq_template script [push] [last] k (by simp [length]; omega)
  · intro i below
    obtain rfl : i = 0 := by simpa using below
    exact first
  · intro i below
    obtain rfl : i = 0 := by simpa using below
    rw [List.length_singleton, Nat.add_zero, Nat.add_comm]
    exact final

theorem headD_take_drop {script payload : Bytes} {header : UInt8} {start count : Nat}
    (taken : (script.drop start).take count = header :: payload) : script.getD start 0 = header := by
  have first := congrArg (List.getD · 0 0) taken
  have positive : 0 < count := by
    rcases Nat.eq_zero_or_pos count with zero | positive
    · rw [zero, List.take_zero] at taken
      cases taken
    · exact positive
  simpa [List.getD_eq_getElem?_getD, List.getElem?_take, positive] using first

theorem IsToPubKey_eq_some {script : CScript} {pubkey : CPubKey} (found : IsToPubKey script = some pubkey) :
    (∃ header X, (header = SECP256K1_TAG_PUBKEY_EVEN ∨ header = SECP256K1_TAG_PUBKEY_ODD) ∧ X.length = 32 ∧
      pubkey = ⟨header :: X⟩ ∧ script = [33] ++ (header :: X) ++ [OP_CHECKSIG]) ∨
    (∃ X Y, X.length = 32 ∧ Y.length = 32 ∧ pubkey.IsFullyValid = true ∧
      pubkey = ⟨SECP256K1_TAG_PUBKEY_UNCOMPRESSED :: (X ++ Y)⟩ ∧
      script = [65] ++ (SECP256K1_TAG_PUBKEY_UNCOMPRESSED :: (X ++ Y)) ++ [OP_CHECKSIG]) := by
  unfold IsToPubKey at found
  split_ifs at found with compressed uncompressed
  · -- a compressed key: its header is read off the script
    cases found
    obtain ⟨length, push, checkSig, header⟩ := compressed
    have shape := eq_push_template length push checkSig
    have payloadLength : ((script.drop 1).take 33).length = 33 := by simp [length]
    cases taken : (script.drop 1).take 33 with
    | nil => rw [taken] at payloadLength; cases payloadLength
    | cons h X =>
        rw [taken] at shape payloadLength
        have first := headD_take_drop taken
        refine .inl ⟨h, X, first ▸ header, by simpa using payloadLength,
          CPubKey.Set_of_GetLen ?_, shape⟩
        rw [CPubKey.GetLen_of_compressed (first ▸ header)]
        simp only [List.length_cons] at payloadLength
        rw [payloadLength]
        rfl
  · -- an uncompressed key: the tag, `x` and `y`
    dsimp only at found
    split_ifs at found with fullyValid
    cases found
    obtain ⟨length, push, checkSig, tag⟩ := uncompressed
    have shape := eq_push_template length push checkSig
    have payloadLength : ((script.drop 1).take 65).length = 65 := by simp [length]
    cases taken : (script.drop 1).take 65 with
    | nil => rw [taken] at payloadLength; cases payloadLength
    | cons h coordinates =>
        rw [taken] at shape payloadLength fullyValid
        have isTag : h = SECP256K1_TAG_PUBKEY_UNCOMPRESSED := (headD_take_drop taken).symm.trans tag
        subst isTag
        simp only [List.length_cons] at payloadLength
        have halves := List.take_append_drop 32 coordinates
        have lengthX : (coordinates.take 32).length = 32 := by simp; omega
        have lengthY : (coordinates.drop 32).length = 32 := by simp; omega
        rw [← halves] at shape fullyValid ⊢
        rw [CPubKey.Set_uncompressed lengthX lengthY] at fullyValid ⊢
        exact .inr ⟨_, _, lengthX, lengthY, fullyValid, rfl, shape⟩

set_option maxRecDepth 20000 in
theorem uncompressed_tag : ∀ b : UInt8,
    ((0x04 ||| (b &&& 0x01)).toNat = 4 ∨ (0x04 ||| (b &&& 0x01)).toNat = 5) ∧
    (UInt8.ofNat ((0x04 ||| (b &&& 0x01)).toNat - 2) = SECP256K1_TAG_PUBKEY_EVEN ∨
      UInt8.ofNat ((0x04 ||| (b &&& 0x01)).toNat - 2) = SECP256K1_TAG_PUBKEY_ODD) ∧
    (UInt8.ofNat ((0x04 ||| (b &&& 0x01)).toNat - 2) == SECP256K1_TAG_PUBKEY_ODD) = (b.toNat % 2 == 1) := by
  decide

theorem valueBE_mod_two {Y : Bytes} (nonempty : Y ≠ []) : valueBE Y % 2 = (Y.getLast nonempty).toNat % 2 := by
  conv_lhs => rw [← List.dropLast_append_getLast nonempty]
  rw [valueBE_append_singleton]
  omega

namespace ScriptCompression

def nSpecialScripts : Nat := 6

end ScriptCompression

open ScriptCompression in
theorem DecompressScript_CompressScript {script compr : CScript} (accepted : CompressScript script = some compr) :
    ∃ nSize inp, compr = UInt8.ofNat nSize :: inp ∧ nSize < nSpecialScripts ∧
      inp.length = GetSpecialScriptSize nSize ∧ DecompressScript nSize inp = some script := by
  unfold CompressScript at accepted
  cases keyID : IsToKeyID script with
  | some hash =>
      simp only [keyID, Option.some.injEq] at accepted
      subst accepted
      obtain ⟨length, shape⟩ := IsToKeyID_eq_some keyID
      refine ⟨0, hash, rfl, by decide, by simp [GetSpecialScriptSize, length], ?_⟩
      rw [DecompressScript, if_pos rfl, List.take_of_length_le (by omega), shape]
  | none =>
  cases scriptID : IsToScriptID script with
  | some hash =>
      simp only [keyID, scriptID, Option.some.injEq] at accepted
      subst accepted
      obtain ⟨length, shape⟩ := IsToScriptID_eq_some scriptID
      refine ⟨1, hash, rfl, by decide, by simp [GetSpecialScriptSize, length], ?_⟩
      rw [DecompressScript, if_neg (by decide), if_pos rfl, List.take_of_length_le (by omega), shape]
  | none =>
  cases toPubKey : IsToPubKey script with
  | none => simp [keyID, scriptID, toPubKey] at accepted
  | some pubkey =>
      simp only [keyID, scriptID, toPubKey] at accepted
      rcases IsToPubKey_eq_some toPubKey with ⟨header, X, isTag, lengthX, rfl, shape⟩ |
        ⟨X, Y, lengthX, lengthY, fullyValid, rfl, shape⟩
      · -- a compressed key is written as it is
        have isCompressed : header = 0x02 ∨ header = 0x03 := isTag
        simp only [List.getD_cons_zero, List.drop_one, List.tail_cons, List.take_of_length_le (by omega : X.length ≤ 32),
          if_pos isCompressed, Option.some.injEq] at accepted
        subst accepted
        have small : header.toNat = 2 ∨ header.toNat = 3 := by
          rcases isCompressed with rfl | rfl <;> decide
        refine ⟨header.toNat, X, by rw [UInt8.ofNat_toNat], by simp only [nSpecialScripts]; omega,
          by simp only [GetSpecialScriptSize]; split_ifs <;> omega, ?_⟩
        rw [DecompressScript, if_neg (by omega), if_neg (by omega), if_pos small, UInt8.ofNat_toNat,
          List.take_of_length_le (by omega), shape]
        rfl
      · -- an uncompressed key keeps `x` and the parity of `y`, and is decompressed back
        have notCompressed : ¬ (SECP256K1_TAG_PUBKEY_UNCOMPRESSED = 0x02 ∨ SECP256K1_TAG_PUBKEY_UNCOMPRESSED = 0x03) := by
          decide
        have last : (SECP256K1_TAG_PUBKEY_UNCOMPRESSED :: (X ++ Y)).getD 64 0 =
            Y.getLast (List.ne_nil_of_length_pos (by omega)) := by
          simp [List.getD_eq_getElem?_getD, lengthX, List.getLast_eq_getElem, lengthY]
        have isUncompressed : SECP256K1_TAG_PUBKEY_UNCOMPRESSED = 0x04 := rfl
        simp only [List.getD_cons_zero, List.drop_one, List.tail_cons, if_neg notCompressed, if_pos isUncompressed,
          last, Option.some.injEq] at accepted
        rw [List.take_left' lengthX] at accepted
        subst accepted
        obtain ⟨size, isTag, parity⟩ := uncompressed_tag (Y.getLast (List.ne_nil_of_length_pos (by omega)))
        rw [← valueBE_mod_two] at parity
        have decompressed := CPubKey.Decompress_Set_compressed lengthX lengthY
          (by rw [CPubKey.Set_uncompressed lengthX lengthY]; exact fullyValid) isTag parity
        refine ⟨_, X, by rw [UInt8.ofNat_toNat], by simp only [nSpecialScripts]; omega,
          by simp only [GetSpecialScriptSize]; split_ifs <;> omega, ?_⟩
        rw [DecompressScript, if_neg (by omega), if_neg (by omega), if_neg (by omega), if_pos size,
          List.take_of_length_le (by omega), decompressed, CPubKey.Set_uncompressed lengthX lengthY]
        dsimp only
        rw [List.take_of_length_le (by simp [lengthX, lengthY]), shape]

namespace ScriptCompression

/-- `Ser`: a template as its tag and payload, every other script behind `VARINT` of its size plus
`nSpecialScripts` (an `unsigned int`). -/
def Ser (script : CScript) : Bytes :=
  match CompressScript script with
  | some compr => compr
  | none => WriteVarInt ((script.length + nSpecialScripts) % 2 ^ 32) ++ script

def ignoreEndOfData : String := "CDataStream::ignore(): end of data"

/-- `Unser` into `script`, which a tag whose key is not on the curve leaves as it was. -/
def Unser (script : CScript) : Decoder CScript := do
  let nSize ← ReadVarInt 32
  if nSize < nSpecialScripts then do
    let vch ← readBytes endOfData (GetSpecialScriptSize nSize)
    pure ((DecompressScript nSize vch).getD script)
  else
    let nSize := nSize - nSpecialScripts
    if nSize > MAX_SCRIPT_SIZE then do
      -- an overly long script is skipped and replaced by a short invalid one
      let _ ← readBytes ignoreEndOfData nSize
      pure (script ++ [OP_RETURN])
    else readBytes endOfData nSize

theorem Unser_Ser (script before : CScript) (fits : script.length ≤ MAX_SCRIPT_SIZE) (rest : Bytes) :
    Unser before (Ser script ++ rest) = .ok (script, rest) := by
  unfold Ser
  cases compressed : CompressScript script with
  | some compr =>
      obtain ⟨nSize, inp, rfl, special, length, decompressed⟩ := DecompressScript_CompressScript compressed
      have small : nSize < 128 := by simp only [nSpecialScripts] at special; omega
      have tag : ReadVarInt 32 (UInt8.ofNat nSize :: inp ++ rest) = .ok (nSize, inp ++ rest) := by
        rw [ReadVarInt, List.cons_append, readVarIntLoop_last small (by omega), Nat.zero_mul, Nat.zero_add]
      have payload := readBytes_append endOfData inp rest
      rw [length] at payload
      rw [Unser, bind_of_ok tag, if_pos special, bind_of_ok payload, decompressed]
      rfl
  | none =>
      have sized : (script.length + nSpecialScripts) % 2 ^ 32 = script.length + nSpecialScripts := by
        simp only [MAX_SCRIPT_SIZE] at fits
        simp only [nSpecialScripts]
        omega
      have size := ReadVarInt_roundTrip 32 ((script.length + nSpecialScripts) % 2 ^ 32) (Nat.mod_lt _ (by decide))
        (script ++ rest)
      rw [sized] at size
      have notSpecial : ¬ script.length + nSpecialScripts < nSpecialScripts := by omega
      rw [List.append_assoc, sized, Unser, bind_of_ok size, if_neg notSpecial, Nat.add_sub_cancel, if_neg (by omega), readBytes_append]

end ScriptCompression

/-- `CConfidentialValue::SetToAmount`: the explicit prefix and the amount's 64 bits, big endian. -/
def CConfidentialValue.SetToAmount (amount : CAmount) : CConfidentialValue :=
  ⟨1 :: (writeLE 8 (UInt64.ofInt amount).toNat).reverse⟩

theorem ofInt_toInt_toInt64 (x : UInt64) : UInt64.ofInt x.toInt64.toInt = x := by
  apply UInt64.toNat_inj.mp
  have bound := x.toNat_lt
  simp only [UInt64.ofInt, UInt64.toNat_ofNat', Int64.toInt, UInt64.toBitVec_toInt64]
  rw [BitVec.toInt_eq_toNat_cond, UInt64.toNat_toBitVec]
  split <;> omega

theorem SetToAmount_GetAmount {val : CConfidentialValue} (explicit : val.IsExplicit = true) :
    CConfidentialValue.SetToAmount (UInt64.ofInt val.GetAmount).toInt64.toInt = val := by
  obtain ⟨_ | ⟨version, body⟩⟩ := val
  · simp [CConfidentialCommitment.IsExplicit] at explicit
  · simp only [CConfidentialCommitment.IsExplicit, List.length_cons, List.head?_cons, Bool.and_eq_true,
      beq_iff_eq, Option.some.injEq] at explicit
    obtain ⟨length, rfl⟩ := explicit
    have eight : body.length = 8 := by omega
    have fits : valueBE body < 2 ^ 64 := by
      have := valueBE_lt body
      rw [eight] at this
      exact this
    rw [CConfidentialValue.SetToAmount, CConfidentialValue.GetAmount, ofInt_toInt_toInt64, ofInt_toInt_toInt64,
      List.drop_one, List.tail_cons, List.take_of_length_le (by omega), UInt64.toNat_ofNat',
      Nat.mod_eq_of_lt fits, ← eight, reverse_writeLE_valueBE]

theorem toNat_ofInt_of_MoneyRange {a : Int} (range : MoneyRange a = true) :
    ((UInt64.ofInt a).toNat : Int) = a := by
  simp only [MoneyRange, Bool.and_eq_true, decide_eq_true_eq] at range
  -- restated over `Int` itself, where `omega` reads them
  have nonneg : 0 ≤ a := range.1
  have bounded : a ≤ 2100000000000000 := range.2
  simp only [UInt64.ofInt, UInt64.toNat_ofNat']
  omega

namespace AmountCompression

/-- `Ser`: in Elements mode a type byte, then the compressed amount of an explicit value or the
value's own encoding; otherwise the compressed amount alone, `none` where the source asserts
that the value is explicit. -/
def Ser (g_con_elementsmode : Bool) (val : CConfidentialValue) : Option Bytes :=
  if g_con_elementsmode then
    if val.IsExplicit then some (serWritedata8 0 ++ WriteVarInt (CompressAmount (UInt64.ofInt val.GetAmount)).toNat)
    else some (serWritedata8 1 ++ val.serialize)
  else if val.IsExplicit then some (WriteVarInt (CompressAmount (UInt64.ofInt val.GetAmount)).toNat)
  else none

/-- `Unser`: the `uint64_t` that `DecompressAmount` returns is stored as a `CAmount` into an
explicit value. -/
def Unser (g_con_elementsmode : Bool) : Decoder CConfidentialValue :=
  if g_con_elementsmode then do
    let type ← serReaddata8
    if type = 0 then do
      let v ← ReadVarInt 64
      pure (CConfidentialValue.SetToAmount (DecompressAmount (UInt64.ofNat v)).toInt64.toInt)
    else CConfidentialCommitment.unserialize
  else do
    let v ← ReadVarInt 64
    pure (CConfidentialValue.SetToAmount (DecompressAmount (UInt64.ofNat v)).toInt64.toInt)

end AmountCompression

namespace AssetCompression

def Ser (g_con_elementsmode : Bool) (val : CConfidentialAsset) : Bytes :=
  if g_con_elementsmode then val.serialize else []

def Unser (g_con_elementsmode : Bool) (val : CConfidentialAsset) : Decoder CConfidentialAsset :=
  if g_con_elementsmode then CConfidentialCommitment.unserialize else pure val

end AssetCompression

namespace TxOutCompression

def Ser (g_con_elementsmode : Bool) (txout : CTxOut) : Option Bytes := do
  let nValue ← AmountCompression.Ser g_con_elementsmode txout.nValue
  pure (nValue ++ AssetCompression.Ser g_con_elementsmode txout.nAsset ++ ScriptCompression.Ser txout.scriptPubKey)

/-- Reads into `obj`, whose nonce stays. -/
def Unser (g_con_elementsmode : Bool) (obj : CTxOut) : Decoder CTxOut := do
  let nValue ← AmountCompression.Unser g_con_elementsmode
  let nAsset ← AssetCompression.Unser g_con_elementsmode obj.nAsset
  let scriptPubKey ← ScriptCompression.Unser obj.scriptPubKey
  pure ⟨nAsset, nValue, obj.nNonce, scriptPubKey⟩

end TxOutCompression

section Roundtrip

open CConfidentialCommitment

theorem AmountCompression.Unser_Ser (val : CConfidentialValue)
    (valid : val.IsNull = true ∨ val.IsCommitment = true ∨ (val.IsExplicit = true ∧ MoneyRange val.GetAmount = true))
    (rest : Bytes) :
    ∃ bytes, AmountCompression.Ser true val = some bytes ∧ AmountCompression.Unser true (bytes ++ rest) = .ok (val, rest) := by
  by_cases explicit : val.IsExplicit = true
  · -- the type byte `0` and the compressed amount
    have range : MoneyRange val.GetAmount = true := by
      rcases valid with null | committed | ⟨-, range⟩
      · simp [IsNull, IsExplicit] at null explicit
        simp [null] at explicit
      · simp only [IsCommitment, IsExplicit, Bool.and_eq_true, beq_iff_eq] at committed explicit
        simp [nCommittedSize] at committed
        omega
      · exact range
    refine ⟨_, by rw [AmountCompression.Ser, if_pos rfl, if_pos explicit], ?_⟩
    have read := ReadVarInt_roundTrip 64 (CompressAmount (UInt64.ofInt val.GetAmount)).toNat (UInt64.toNat_lt _) rest
    rw [List.append_assoc, AmountCompression.Unser, if_pos rfl, bind_of_ok (serReaddata8_roundTrip 0 _),
      if_pos rfl, bind_of_ok read, UInt64.ofNat_toNat,
      DecompressAmount_CompressAmount _ (le_of_eq_of_le (toNat_ofInt_of_MoneyRange range) ?_),
      SetToAmount_GetAmount explicit]
    · rfl
    · simp only [MoneyRange, Bool.and_eq_true, decide_eq_true_eq] at range
      exact range.2
  · -- the type byte `1` and the value's own encoding
    have valid' : val.IsValid = true := by
      rcases valid with null | committed | ⟨explicit', -⟩
      · simp [IsValid, null]
      · simp [IsValid, committed]
      · exact absurd explicit' explicit
    refine ⟨_, by rw [AmountCompression.Ser, if_pos rfl, if_neg explicit], ?_⟩
    rw [List.append_assoc, AmountCompression.Unser, if_pos rfl, bind_of_ok (serReaddata8_roundTrip 1 _),
      if_neg (by decide), CConfidentialValue.unserialize_roundTrip val valid']

theorem AssetCompression.Unser_Ser (asset before : CConfidentialAsset) (valid : asset.IsValid = true) (rest : Bytes) :
    AssetCompression.Unser true before (AssetCompression.Ser true asset ++ rest) = .ok (asset, rest) := by
  rw [AssetCompression.Ser, if_pos rfl, AssetCompression.Unser, if_pos rfl]
  exact CConfidentialAsset.unserialize_roundTrip asset valid rest

theorem TxOutCompression.Unser_Ser (txout target : CTxOut)
    (value : txout.nValue.IsNull = true ∨ txout.nValue.IsCommitment = true ∨
      (txout.nValue.IsExplicit = true ∧ MoneyRange txout.nValue.GetAmount = true))
    (asset : txout.nAsset.IsValid = true) (script : txout.scriptPubKey.length ≤ MAX_SCRIPT_SIZE) (rest : Bytes) :
    ∃ bytes, TxOutCompression.Ser true txout = some bytes ∧
      TxOutCompression.Unser true target (bytes ++ rest) =
        .ok (⟨txout.nAsset, txout.nValue, target.nNonce, txout.scriptPubKey⟩, rest) := by
  obtain ⟨valueBytes, written, readValue⟩ := AmountCompression.Unser_Ser txout.nValue value
    (AssetCompression.Ser true txout.nAsset ++ (ScriptCompression.Ser txout.scriptPubKey ++ rest))
  refine ⟨_, by rw [TxOutCompression.Ser, written]; rfl, ?_⟩
  rw [List.append_assoc, List.append_assoc, TxOutCompression.Unser, bind_of_ok readValue,
    bind_of_ok (AssetCompression.Unser_Ser _ target.nAsset asset _),
    bind_of_ok (ScriptCompression.Unser_Ser _ target.scriptPubKey script rest)]
  rfl

end Roundtrip

/-- The compact UTXO encoding of an output round-trips in Elements mode, dropping only the
nonce: amounts up to `MAX_MONEY` survive `CompressAmount`, every script `CompressScript`
accepts survives `DecompressScript`, and an output with a null, committed or in-range explicit
value, a valid asset and a script of at most `MAX_SCRIPT_SIZE` bytes is read back. -/
theorem txOutCompression_roundTrip :
    (∀ n : UInt64, (n.toNat : CAmount) ≤ MAX_MONEY → DecompressAmount (CompressAmount n) = n) ∧
    (∀ script compr : CScript, CompressScript script = some compr →
      DecompressScript (compr.headD 0).toNat compr.tail = some script) ∧
    (∀ (txout target : CTxOut) (rest : Bytes),
      (txout.nValue.IsNull = true ∨ txout.nValue.IsCommitment = true ∨
        (txout.nValue.IsExplicit = true ∧ MoneyRange txout.nValue.GetAmount = true)) →
      txout.nAsset.IsValid = true → txout.scriptPubKey.length ≤ MAX_SCRIPT_SIZE →
      ∃ bytes, TxOutCompression.Ser true txout = some bytes ∧
        TxOutCompression.Unser true target (bytes ++ rest) =
          .ok (⟨txout.nAsset, txout.nValue, target.nNonce, txout.scriptPubKey⟩, rest)) := by
  refine ⟨DecompressAmount_CompressAmount, fun script compr accepted => ?_,
    fun txout target rest value asset script => TxOutCompression.Unser_Ser txout target value asset script rest⟩
  obtain ⟨nSize, inp, rfl, special, -, decompressed⟩ := DecompressScript_CompressScript accepted
  have small : nSize < 256 := by simp only [ScriptCompression.nSpecialScripts] at special; omega
  rw [List.headD_cons, List.tail_cons, UInt8.toNat_ofNat', Nat.mod_eq_of_lt small]
  exact decompressed

end Elements
