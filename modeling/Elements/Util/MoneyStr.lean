import Elements.Primitives.Confidential
import Elements.Machine.CInt
import Elements.Wire.Decimal

/-! `util/moneystr.cpp`: `FormatMoney` prints an amount as coins with at least two and at most
eight decimals, and `ParseMoney` reads back a number of coins with at most ten whole digits and
eight decimals, with the string helpers of `util/string.h` and `util/strencodings.h` they use.
Strings are lists of characters. -/

namespace Elements

open Decimal

def IsSpace (c : Char) : Bool :=
  c == ' ' || c == '\x0c' || c == '\n' || c == '\r' || c == '\t' || c == '\x0b'

/-- The default pattern of `TrimString`, `" \f\n\r\t\v"`. -/
def trimPattern : List Char := [' ', '\x0c', '\n', '\r', '\t', '\x0b']

def findFirstNotOf (str pattern : List Char) : Option Nat := str.findIdx? (fun c => !pattern.contains c)

def findLastNotOf (str pattern : List Char) : Option Nat :=
  (str.reverse.findIdx? (fun c => !pattern.contains c)).map (fun k => str.length - 1 - k)

/-- `TrimString(str, pattern)`: the characters from the first to the last one not in `pattern`. -/
def TrimString (str pattern : List Char) : List Char :=
  match findFirstNotOf str pattern, findLastNotOf str pattern with
  | some front, some last => (str.drop front).take (last - front + 1)
  | _, _ => []

/-- `ValidAsCString`: no NUL character cuts the string short. -/
def ValidAsCString (str : List Char) : Bool := str.length == (str.takeWhile (· != '\x00')).length

/-- The error conditions `std::from_chars` reports. -/
inductive errc where
  | invalid_argument
  | result_out_of_range
  deriving DecidableEq, Repr

/-- `std::from_chars` into an `int64_t`: a minus sign and the longest run of digits after it. -/
def fromChars (s : List Char) : Except errc Int :=
  let negative := s.head? == some '-'
  let digits := (if negative then s.tail else s).takeWhile IsDigit
  if digits.isEmpty then .error .invalid_argument
  else
    let result : Int := if negative then -(value digits : Int) else value digits
    if Int64Range result then .ok result else .error .result_out_of_range

/-- `LocaleIndependentAtoi<int64_t>`: `atoi`'s handling of space and of a leading plus, and the
saturation of an out-of-range value. -/
def LocaleIndependentAtoi (str : List Char) : Int :=
  let s := TrimString str trimPattern
  if s.head? == some '+' && s[1]? == some '-' then 0
  else
    let s := if s.head? == some '+' then s.tail else s
    match fromChars s with
    | .ok result => result
    | .error .result_out_of_range => if s.head? == some '-' then CInt.min 64 else CInt.max 64
    | .error .invalid_argument => 0

/-- The loop of `FormatMoney` counting, from position `i` down, the zeros to trim: a zero counts
while the character two places before it is a digit. The decimal point stops the loop two places
above it, long before position zero. -/
def trimZerosFrom (str : List Char) : Nat → Nat
  | 0 => 0
  | i + 1 =>
      if str.getD (i + 1) ' ' == '0' && IsDigit (str.getD (i - 1) ' ') then trimZerosFrom str i + 1 else 0

def FormatMoney (n : CAmount) : List Char :=
  let quotient := n.tdiv COIN
  let remainder := n.tmod COIN
  let quotient := if n < 0 then -quotient else quotient
  let remainder := if n < 0 then -remainder else remainder
  -- strprintf("%d.%08d", quotient, remainder), with both non-negative here
  let str := decDigits quotient.toNat ++ '.' :: zeroPadded 8 remainder.toNat
  let nTrim := trimZerosFrom str (str.length - 1)
  let str := str.take (str.length - nTrim)
  if n < 0 then '-' :: str else str

def parseFraction (nMult nUnits : Int) : List Char → Int × List Char
  | [] => (nUnits, [])
  | c :: rest =>
      if IsDigit c && nMult > 0 then parseFraction (nMult / 10) (nUnits + nMult * (digitValue c : Int)) rest
      else (nUnits, c :: rest)

/-- The loop over the whole part: its digits, then at a point the fraction; `none` at a space or
any other character. Returns the whole digits, the units and what is left unread. -/
def parseWhole (strWhole : List Char) : List Char → Option (List Char × Int × List Char)
  | [] => some (strWhole, 0, [])
  | c :: rest =>
      if c = '.' then
        let (nUnits, rest) := parseFraction (COIN / 10) 0 rest
        some (strWhole, nUnits, rest)
      else if IsSpace c then none
      else if !IsDigit c then none
      else parseWhole (strWhole ++ [c]) rest

def ParseMoney (money_string : List Char) : Option CAmount :=
  if !ValidAsCString money_string then none
  else
    let str := TrimString money_string trimPattern
    if str.isEmpty then none
    else
      match parseWhole [] str with
      | none => none
      | some (strWhole, nUnits, rest) =>
          -- characters left after the fraction
          if !rest.isEmpty then none
          -- guard against 63 bit overflow
          else if strWhole.length > 10 then none
          else if nUnits < 0 ∨ nUnits > COIN then none
          else
            let nWhole := LocaleIndependentAtoi strWhole
            let value := nWhole * COIN + nUnits
            if !MoneyRange value then none else some value

section Digits

variable {c : Char} (digit : IsDigit c = true)
include digit

theorem IsSpace_of_IsDigit : IsSpace c = false := by
  have range := toNat_of_IsDigit digit
  simp only [IsSpace, Bool.or_eq_false_iff, beq_eq_false_iff_ne]
  refine ⟨⟨⟨⟨⟨?_, ?_⟩, ?_⟩, ?_⟩, ?_⟩, ?_⟩ <;> exact ne_of_IsDigit digit (by decide)

theorem contains_trimPattern_of_IsDigit : trimPattern.contains c = false := by
  simp only [trimPattern, List.contains_eq_any_beq, List.any_cons, List.any_nil, Bool.or_false,
    Bool.or_eq_false_iff, beq_eq_false_iff_ne]
  refine ⟨?_, ?_, ?_, ?_, ?_, ?_⟩ <;> exact ne_of_IsDigit digit (by decide)

theorem ne_point_of_IsDigit : c ≠ '.' := ne_of_IsDigit digit (by decide)

theorem ne_plus_of_IsDigit : c ≠ '+' := ne_of_IsDigit digit (by decide)

theorem ne_minus_of_IsDigit : c ≠ '-' := ne_of_IsDigit digit (by decide)

theorem ne_nul_of_IsDigit : c ≠ '\x00' := ne_of_IsDigit digit (by decide)

end Digits

theorem TrimString_eq_self {str pattern : List Char} (nonempty : str ≠ [])
    (first : pattern.contains (str.head nonempty) = false) (last : pattern.contains (str.getLast nonempty) = false) :
    TrimString str pattern = str := by
  obtain ⟨c, rest, rfl⟩ := List.exists_cons_of_ne_nil nonempty
  have front : findFirstNotOf (c :: rest) pattern = some 0 := by
    rw [findFirstNotOf, List.findIdx?_cons, if_pos (by simpa using first)]
  have back : findLastNotOf (c :: rest) pattern = some rest.length := by
    have split := List.dropLast_append_getLast nonempty
    rw [findLastNotOf, ← split, List.reverse_concat, List.findIdx?_cons, if_pos (by simpa using last)]
    simp
  simp only [TrimString, front, back, List.drop_zero, Nat.sub_zero]
  exact List.take_of_length_le (by simp)

theorem TrimString_digits {W : List Char} (digits : ∀ c ∈ W, IsDigit c = true) : TrimString W trimPattern = W := by
  by_cases empty : W = []
  · subst empty
    rfl
  · exact TrimString_eq_self empty (contains_trimPattern_of_IsDigit (digits _ (List.head_mem empty)))
      (contains_trimPattern_of_IsDigit (digits _ (List.getLast_mem empty)))

theorem LocaleIndependentAtoi_digits {W : List Char} (digits : ∀ c ∈ W, IsDigit c = true) (short : W.length ≤ 18) :
    LocaleIndependentAtoi W = value W := by
  unfold LocaleIndependentAtoi
  rw [TrimString_digits digits]
  cases W with
  | nil => rfl
  | cons c rest =>
      have first := digits c (by simp)
      have notPlus : (some c == some '+') = false := by simpa using ne_plus_of_IsDigit first
      have notMinus : (some c == some '-') = false := by simpa using ne_minus_of_IsDigit first
      have fits : Int64Range (value (c :: rest) : Int) := by
        have below := value_lt digits
        have bound : (10 : Nat) ^ (c :: rest).length ≤ 10 ^ 18 := Nat.pow_le_pow_right (by decide) short
        -- `omega` reads the bound once `CAmount` is unfolded
        unfold Int64Range CAmount
        constructor <;> omega
      simp only [List.head?_cons, notPlus, Bool.false_and, Bool.false_eq_true, if_false, fromChars, notMinus,
        List.takeWhile_eq_self_iff.mpr digits, List.isEmpty_cons, if_pos fits]

theorem parseFraction_zero (nUnits : Int) (rest : List Char) : parseFraction 0 nUnits rest = (nUnits, rest) := by
  cases rest with
  | nil => rfl
  | cons c rest => simp [parseFraction]

theorem pow_succ_div_ten (k : Nat) : (10 : Int) ^ (k + 1) / 10 = 10 ^ k := by
  rw [pow_succ, Int.mul_ediv_cancel _ (by decide)]

theorem parseFraction_digits {F : List Char} (digits : ∀ c ∈ F, IsDigit c = true) :
    ∀ {k : Nat} (nUnits : Int), F.length ≤ k + 1 →
      parseFraction (10 ^ k) nUnits F = (nUnits + value F * 10 ^ (k + 1 - F.length), []) := by
  induction F with
  | nil =>
      intro k nUnits _
      simp [parseFraction]
  | cons c F ih =>
      intro k nUnits short
      have digit := digits c List.mem_cons_self
      have later : ∀ d ∈ F, IsDigit d = true := fun d member => digits d (List.mem_cons_of_mem c member)
      have positive : (10 : Int) ^ k > 0 := by positivity
      rw [parseFraction, if_pos (by simp [digit, positive]), value_cons]
      rw [List.length_cons] at short
      cases k with
      | zero =>
          -- one digit is all the multiplier allows, and it is all there is
          obtain rfl : F = [] := List.eq_nil_of_length_eq_zero (by omega)
          simp [parseFraction]
      | succ k =>
          obtain ⟨spare, split⟩ : ∃ spare, k + 1 = F.length + spare := ⟨k + 1 - F.length, by omega⟩
          rw [pow_succ_div_ten, ih later _ (by omega), split, List.length_cons,
            show F.length + spare + 1 - (F.length + 1) = spare by omega, Nat.add_sub_cancel_left]
          congr 1
          push_cast
          ring

theorem parseFraction_read_all {L : List Char} :
    ∀ {k : Nat} {nUnits units : Int}, parseFraction (10 ^ k) nUnits L = (units, []) →
      (∀ c ∈ L, IsDigit c = true) ∧ L.length ≤ k + 1 := by
  induction L with
  | nil =>
      intro k nUnits units _
      simp
  | cons c L ih =>
      intro k nUnits units parsed
      rw [parseFraction] at parsed
      split_ifs at parsed with read
      · have digit : IsDigit c = true := (Bool.and_eq_true _ _ ▸ read).1
        cases k with
        | zero =>
            -- the multiplier is spent after one digit: nothing may follow
            rw [pow_zero, show (1 : Int) / 10 = 0 by decide, parseFraction_zero] at parsed
            obtain rfl : L = [] := (Prod.mk.inj parsed).2
            simp [digit]
        | succ k =>
            rw [pow_succ_div_ten] at parsed
            obtain ⟨later, short⟩ := ih parsed
            refine ⟨?_, by simp; omega⟩
            intro d member
            rcases List.mem_cons.mp member with rfl | member
            · exact digit
            · exact later d member
      · exact absurd (Prod.mk.inj parsed).2 (List.cons_ne_nil c L)

theorem COIN_div_ten : COIN / 10 = 10 ^ 7 := by decide

theorem parseWhole_digits {W : List Char} (digits : ∀ c ∈ W, IsDigit c = true) (strWhole rest : List Char) :
    parseWhole strWhole (W ++ rest) = parseWhole (strWhole ++ W) rest := by
  induction W generalizing strWhole with
  | nil => simp
  | cons c W ih =>
      have digit := digits c List.mem_cons_self
      rw [List.cons_append, parseWhole, if_neg (ne_point_of_IsDigit digit), if_neg (by simp [IsSpace_of_IsDigit digit]),
        if_neg (by simp [digit]), ih (fun d member => digits d (List.mem_cons_of_mem c member)), List.append_assoc,
        List.singleton_append]

theorem parseWhole_point (strWhole F : List Char) :
    parseWhole strWhole ('.' :: F) =
      some (strWhole, (parseFraction (10 ^ 7) 0 F).1, (parseFraction (10 ^ 7) 0 F).2) := by
  rw [parseWhole, if_pos rfl, COIN_div_ten]

theorem parseWhole_read_all {L : List Char} :
    ∀ {strWhole W : List Char} {nUnits : Int}, parseWhole strWhole L = some (W, nUnits, []) →
      ∃ whole frac, W = strWhole ++ whole ∧ (∀ c ∈ whole, IsDigit c = true) ∧ (∀ c ∈ frac, IsDigit c = true) ∧
        frac.length ≤ 8 ∧ ((L = whole ∧ frac = []) ∨ L = whole ++ '.' :: frac) ∧
        nUnits = value frac * 10 ^ (8 - frac.length) := by
  induction L with
  | nil =>
      intro strWhole W nUnits parsed
      obtain ⟨rfl, rfl, -⟩ : strWhole = W ∧ 0 = nUnits ∧ ([] : List Char) = [] := by
        simpa [parseWhole] using parsed
      exact ⟨[], [], by simp, by simp, by simp, by simp, .inl ⟨rfl, rfl⟩, by simp⟩
  | cons c L ih =>
      intro strWhole W nUnits parsed
      by_cases point : c = '.'
      · subst point
        rw [parseWhole_point] at parsed
        obtain ⟨rfl, fraction⟩ : strWhole = W ∧ parseFraction (10 ^ 7) 0 L = (nUnits, []) := by
          simp only [Option.some.injEq, Prod.mk.injEq] at parsed
          exact ⟨parsed.1, Prod.ext parsed.2.1 parsed.2.2⟩
        obtain ⟨digits, short⟩ := parseFraction_read_all fraction
        rw [parseFraction_digits digits 0 short] at fraction
        refine ⟨[], L, by simp, by simp, digits, short, .inr rfl, ?_⟩
        rw [← (Prod.mk.inj fraction).1, Int.zero_add]
      · by_cases space : IsSpace c
        · simp [parseWhole, point, space] at parsed
        · by_cases digit : IsDigit c
          · rw [parseWhole, if_neg point, if_neg space, if_neg (by simp [digit])] at parsed
            obtain ⟨whole, frac, rfl, wholeDigits, fracDigits, short, shape, units⟩ := ih parsed
            refine ⟨c :: whole, frac, by simp, ?_, fracDigits, short, ?_, units⟩
            · intro d member
              rcases List.mem_cons.mp member with rfl | member
              · exact digit
              · exact wholeDigits d member
            · rcases shape with ⟨rfl, rfl⟩ | rfl
              · exact .inl ⟨rfl, rfl⟩
              · exact .inr rfl
          · simp [parseWhole, point, space, digit] at parsed

theorem getD_after_point (A P : List Char) (m : Nat) : (A ++ '.' :: P).getD (A.length + 1 + m) ' ' = P.getD m ' ' := by
  rw [List.getD_append_right _ _ _ _ (by omega), show A.length + 1 + m - A.length = m + 1 by omega,
    List.getD_cons_succ]

theorem getD_point (A P : List Char) : (A ++ '.' :: P).getD A.length ' ' = '.' := by
  rw [List.getD_append_right _ _ _ _ (Nat.le_refl _), Nat.sub_self, List.getD_cons_zero]

theorem IsDigit_getD {P : List Char} (digits : ∀ c ∈ P, IsDigit c = true) {m : Nat} (inside : m < P.length) :
    IsDigit (P.getD m ' ') = true := by
  rw [List.getD_eq_getElem _ _ inside]
  exact digits _ (List.getElem_mem inside)

theorem take_succ_getD {P : List Char} {m : Nat} (inside : m < P.length) :
    P.take (m + 1) = P.take m ++ [P.getD m ' '] := by
  rw [List.take_add_one, List.getElem?_eq_getElem inside, List.getD_eq_getElem _ _ inside, Option.toList_some]

section Trim

variable {A P : List Char} (digits : ∀ c ∈ P, IsDigit c = true) (eight : P.length = 8)
include digits eight

theorem trimZerosFrom_decimal_succ {j : Nat} (bound : j + 2 < 8) :
    trimZerosFrom (A ++ '.' :: P) (A.length + 2 + (j + 1)) =
      if P.getD (j + 2) ' ' = '0' then trimZerosFrom (A ++ '.' :: P) (A.length + 2 + j) + 1 else 0 := by
  rw [show A.length + 2 + (j + 1) = A.length + 2 + j + 1 by omega, trimZerosFrom,
    show A.length + 2 + j + 1 = A.length + 1 + (j + 2) by omega, getD_after_point,
    show A.length + 2 + j - 1 = A.length + 1 + j by omega, getD_after_point,
    IsDigit_getD digits (by omega)]
  simp only [Bool.and_true, beq_iff_eq]

theorem trimZerosFrom_decimals (j : Nat) (bound : j + 1 < 8) :
    trimZerosFrom (A ++ '.' :: P) (A.length + 2 + j) ≤ j ∧
      P.take (j + 2) = P.take (j + 2 - trimZerosFrom (A ++ '.' :: P) (A.length + 2 + j)) ++
        List.replicate (trimZerosFrom (A ++ '.' :: P) (A.length + 2 + j)) '0' := by
  induction j with
  | zero =>
      have stop : trimZerosFrom (A ++ '.' :: P) (A.length + 2 + 0) = 0 := by
        rw [show A.length + 2 + 0 = A.length + 1 + 1 by omega, trimZerosFrom, Nat.add_sub_cancel, getD_point]
        simp [IsDigit]
      simp [stop]
  | succ j ih =>
      obtain ⟨few, zeros⟩ := ih (by omega)
      rw [trimZerosFrom_decimal_succ digits eight (by omega)]
      split_ifs with zero
      · refine ⟨by omega, ?_⟩
        rw [take_succ_getD (by omega), zeros, zero, List.replicate_succ', List.append_assoc,
          show j + 1 + 2 - (trimZerosFrom (A ++ '.' :: P) (A.length + 2 + j) + 1) =
            j + 2 - trimZerosFrom (A ++ '.' :: P) (A.length + 2 + j) by omega]
      · simp

theorem trim_decimals :
    ∃ F, (A ++ '.' :: P).take ((A ++ '.' :: P).length - trimZerosFrom (A ++ '.' :: P) ((A ++ '.' :: P).length - 1)) =
        A ++ '.' :: F ∧
      2 ≤ F.length ∧ F.length ≤ 8 ∧ (∀ c ∈ F, IsDigit c = true) ∧ value F * 10 ^ (8 - F.length) = value P := by
  have total : (A ++ '.' :: P).length = A.length + 9 := by simp [eight]
  obtain ⟨few, zeros⟩ := trimZerosFrom_decimals digits eight 6 (by omega)
  rw [total, show A.length + 9 - 1 = A.length + 2 + 6 by omega]
  generalize trimZerosFrom (A ++ '.' :: P) (A.length + 2 + 6) = t at few zeros
  have kept : (P.take (8 - t)).length = 8 - t := by simp [eight]
  refine ⟨P.take (8 - t), ?_, by omega, by omega, fun c member => digits c (List.mem_of_mem_take member), ?_⟩
  · rw [List.take_append, List.take_of_length_le (by omega), show A.length + 9 - t - A.length = 8 - t + 1 by omega,
      List.take_succ_cons]
  · rw [kept, show 8 - (8 - t) = t by omega, ← value_append_zeros, ← zeros, List.take_of_length_le (by omega)]

end Trim

theorem FormatMoney_of_nonneg {n : CAmount} (nonneg : 0 ≤ n) :
    ∃ F, FormatMoney n = decDigits (n / COIN).toNat ++ '.' :: F ∧ 2 ≤ F.length ∧ F.length ≤ 8 ∧
      (∀ c ∈ F, IsDigit c = true) ∧ value F * 10 ^ (8 - F.length) = (n % COIN).toNat := by
  have remainder : (n % COIN).toNat < 10 ^ 8 := by
    have below : n % COIN < COIN := Int.emod_lt_of_pos _ (by decide)
    have above : 0 ≤ n % COIN := Int.emod_nonneg _ (by decide)
    unfold COIN at below above ⊢
    omega
  obtain ⟨F, trimmed, two, eight, digits, worth⟩ :=
    trim_decimals (A := decDigits (n / COIN).toNat) (all_IsDigit_zeroPadded 8 _) (length_zeroPadded (by decide) remainder)
  refine ⟨F, ?_, two, eight, digits, by rw [worth, value_zeroPadded]⟩
  simp only [FormatMoney, Int.tdiv_eq_ediv_of_nonneg nonneg, Int.tmod_eq_emod_of_nonneg nonneg, if_neg (not_lt.mpr nonneg)]
  exact trimmed

example : FormatMoney 150000000 = "1.50".toList := by decide +kernel

example : FormatMoney (-5) = "-0.00000005".toList := by decide +kernel

theorem ParseMoney_some {s : List Char} {v : CAmount} (parsed : ParseMoney s = some v) :
    ∃ whole frac : List Char, whole.length ≤ 10 ∧ (∀ c ∈ whole, IsDigit c = true) ∧ frac.length ≤ 8 ∧
      (∀ c ∈ frac, IsDigit c = true) ∧
      ((TrimString s trimPattern = whole ∧ frac = []) ∨ TrimString s trimPattern = whole ++ '.' :: frac) ∧
      v = value whole * COIN + value frac * 10 ^ (8 - frac.length) ∧ 0 ≤ v ∧ v ≤ MAX_MONEY := by
  unfold ParseMoney at parsed
  simp only at parsed
  split_ifs at parsed with valid empty
  split at parsed
  · contradiction
  · rename_i W nUnits rest wholeParsed
    split_ifs at parsed with leftover long range inMoney
    obtain rfl : rest = [] := by simpa using leftover
    obtain ⟨W, frac, rfl, wholeDigits, fracDigits, short, shape, rfl⟩ := parseWhole_read_all wholeParsed
    rw [LocaleIndependentAtoi_digits wholeDigits (by omega)] at inMoney parsed
    obtain rfl := Option.some.inj parsed
    have money : 0 ≤ (value W : Int) * COIN + value frac * 10 ^ (8 - frac.length) ∧
        (value W : Int) * COIN + value frac * 10 ^ (8 - frac.length) ≤ MAX_MONEY := by
      simpa [MoneyRange] using inMoney
    exact ⟨W, frac, by omega, wholeDigits, short, fracDigits, shape, rfl, money⟩

theorem ValidAsCString_of_ne_nul {str : List Char} (noNul : ∀ c ∈ str, c ≠ '\x00') : ValidAsCString str = true := by
  rw [ValidAsCString, List.takeWhile_eq_self_iff.mpr (by simpa using noNul), beq_self_eq_true]

example : ParseMoney " 1.5 ".toList = some 150000000 := by decide +kernel

example : ParseMoney "1.123456789".toList = none := by decide +kernel

theorem ParseMoney_FormatMoney {n : CAmount} (nonneg : 0 ≤ n) (bounded : n ≤ MAX_MONEY) :
    ParseMoney (FormatMoney n) = some n := by
  obtain ⟨F, formatted, two, eight, digits, worth⟩ := FormatMoney_of_nonneg nonneg
  have wholeDigits := all_IsDigit_decDigits (n / COIN).toNat
  have coins : (n / COIN).toNat < 10 ^ 8 := by
    have quotient : n / COIN ≤ 21000000 := Int.ediv_le_of_le_mul (by decide) bounded
    unfold CAmount at quotient
    omega
  have short := length_decDigits_le (by decide) coins
  have wholeValue := value_decDigits (n / COIN).toNat
  generalize decDigits (n / COIN).toNat = A at formatted wholeDigits short wholeValue
  have chars : ∀ c ∈ A ++ '.' :: F, IsDigit c = true ∨ c = '.' := by
    intro c member
    simp only [List.mem_append, List.mem_cons] at member
    rcases member with inWhole | rfl | inFraction
    · exact .inl (wholeDigits c inWhole)
    · exact .inr rfl
    · exact .inl (digits c inFraction)
  have kept : ∀ c ∈ A ++ '.' :: F, trimPattern.contains c = false := by
    intro c member
    rcases chars c member with digit | rfl
    · exact contains_trimPattern_of_IsDigit digit
    · rfl
  have valid : ValidAsCString (A ++ '.' :: F) = true := by
    refine ValidAsCString_of_ne_nul fun c member => ?_
    rcases chars c member with digit | rfl
    · exact ne_nul_of_IsDigit digit
    · decide
  have nonempty : A ++ '.' :: F ≠ [] := by simp
  have trimmed : TrimString (A ++ '.' :: F) trimPattern = A ++ '.' :: F :=
    TrimString_eq_self nonempty (kept _ (List.head_mem nonempty)) (kept _ (List.getLast_mem nonempty))
  have parsed : parseWhole [] (A ++ '.' :: F) = some (A, (value F : Int) * 10 ^ (8 - F.length), []) := by
    rw [parseWhole_digits wholeDigits, List.nil_append, parseWhole_point, parseFraction_digits digits 0 (by omega),
      Int.zero_add]
  unfold ParseMoney
  simp only
  rw [formatted, valid, trimmed, parsed]
  have whole : LocaleIndependentAtoi A = n / COIN := by
    rw [LocaleIndependentAtoi_digits wholeDigits (by omega), wholeValue, Int.toNat_of_nonneg (Int.ediv_nonneg nonneg (by decide))]
  have units : (value F : Int) * 10 ^ (8 - F.length) = n % COIN := by
    rw [← Int.toNat_of_nonneg (Int.emod_nonneg n (by decide)), ← worth]
    push_cast
    rfl
  have below : n % COIN < COIN := Int.emod_lt_of_pos _ (by decide)
  have above : 0 ≤ n % COIN := Int.emod_nonneg _ (by decide)
  have fits : A.length ≤ 10 := by omega
  rw [units]
  simp [whole, Int.ediv_mul_add_emod, MoneyRange, nonneg, bounded, below.le, above, fits]

theorem parseMoney_formatMoney_inverse :
    (∀ n : CAmount, 0 ≤ n → n ≤ MAX_MONEY → ParseMoney (FormatMoney n) = some n) ∧
      ∀ (s : List Char) (v : CAmount), ParseMoney s = some v →
        ∃ whole frac : List Char, whole.length ≤ 10 ∧ (∀ c ∈ whole, IsDigit c = true) ∧ frac.length ≤ 8 ∧
          (∀ c ∈ frac, IsDigit c = true) ∧
          ((TrimString s trimPattern = whole ∧ frac = []) ∨ TrimString s trimPattern = whole ++ '.' :: frac) ∧
          v = value whole * COIN + value frac * 10 ^ (8 - frac.length) ∧ 0 ≤ v ∧ v ≤ MAX_MONEY :=
  ⟨fun _ nonneg bounded => ParseMoney_FormatMoney nonneg bounded, fun _ _ parsed => ParseMoney_some parsed⟩

end Elements
