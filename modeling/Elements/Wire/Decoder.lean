import Mathlib

/-! Byte decoders that consume a prefix of their input, with the two laws a
wire format is checked against: a value read back from its own encoding, and
every accepted input being the encoding of what was read. -/

namespace Wire

abbrev Bytes := List UInt8

/-- A decoder reads a prefix of its input; it returns the value and the bytes
it left, or the message of the failure it raised. -/
def Decoder (α : Type) := Bytes → Except String (α × Bytes)

namespace Decoder

variable {α β : Type}

protected def pure (value : α) : Decoder α := fun input => .ok (value, input)

protected def bind (first : Decoder α) (next : α → Decoder β) : Decoder β := fun input =>
  match first input with
  | .error message => .error message
  | .ok (value, rest) => next value rest

instance : Monad Decoder where
  pure := Decoder.pure
  bind := Decoder.bind

def fail (message : String) : Decoder α := fun _ => .error message

@[simp] theorem pure_apply (value : α) (input : Bytes) :
    (pure value : Decoder α) input = .ok (value, input) := rfl

@[simp] theorem fail_apply (message : String) (input : Bytes) :
    (fail message : Decoder α) input = .error message := rfl

theorem bind_apply (first : Decoder α) (next : α → Decoder β) (input : Bytes) :
    (first >>= next) input =
      match first input with
      | .error message => .error message
      | .ok (value, rest) => next value rest := rfl

theorem map_apply (f : α → β) (first : Decoder α) (input : Bytes) :
    (f <$> first) input =
      match first input with
      | .error message => .error message
      | .ok (value, rest) => .ok (f value, rest) := by
  show (first >>= fun value => pure (f value)) input = _
  rw [bind_apply]
  cases first input <;> rfl

@[simp] theorem bind_of_ok {first : Decoder α} {next : α → Decoder β} {input rest : Bytes}
    {value : α} (read : first input = .ok (value, rest)) :
    (first >>= next) input = next value rest := by
  rw [bind_apply, read]

@[simp] theorem map_of_ok {first : Decoder α} {f : α → β} {input rest : Bytes} {value : α}
    (read : first input = .ok (value, rest)) :
    (f <$> first) input = .ok (f value, rest) := by
  rw [map_apply, read]

instance : LawfulMonad Decoder := LawfulMonad.mk' Decoder
  (fun first => by
    funext input
    rw [map_apply]
    cases first input <;> rfl)
  (fun _ _ => rfl)
  (fun first next after => by
    funext input
    rw [bind_apply, bind_apply, bind_apply]
    cases first input <;> rfl)

theorem bind_eq_ok {first : Decoder α} {next : α → Decoder β} {input rest : Bytes}
    {result : β} (read : (first >>= next) input = .ok (result, rest)) :
    ∃ value middle, first input = .ok (value, middle) ∧ next value middle = .ok (result, rest) := by
  rw [bind_apply] at read
  split at read
  · cases read
  · exact ⟨_, _, ‹_›, read⟩

theorem map_eq_ok {first : Decoder α} {f : α → β} {input rest : Bytes} {result : β}
    (read : (f <$> first) input = .ok (result, rest)) :
    ∃ value, first input = .ok (value, rest) ∧ f value = result := by
  rw [map_apply] at read
  split at read
  · cases read
  · cases read
    exact ⟨_, ‹_›, rfl⟩

end Decoder

open Decoder

/-- `read` recovers `value` from its encoding, whatever bytes follow it. -/
def RoundTrip {α : Type} (write : α → Bytes) (read : Decoder α) (value : α) : Prop :=
  ∀ rest, read (write value ++ rest) = .ok (value, rest)

/-- Whatever `read` accepts is the encoding of the value it returns, so no
value has a second encoding. -/
def Canonical {α : Type} (write : α → Bytes) (read : Decoder α) : Prop :=
  ∀ input value rest, read input = .ok (value, rest) → write value ++ rest = input

/-- One byte, or a failure at the end of the data. -/
def readByte (message : String) : Decoder UInt8
  | [] => .error message
  | byte :: rest => .ok (byte, rest)

/-- Exactly `count` bytes, or a failure when fewer remain. -/
def readBytes (message : String) (count : Nat) : Decoder Bytes := fun input =>
  if count ≤ input.length then .ok (input.take count, input.drop count) else .error message

theorem bind_eq_ok_of_canonical {α β : Type} {write : α → Bytes} {first : Decoder α}
    (canonical : Canonical write first) {next : α → Decoder β} {input rest : Bytes} {result : β}
    (read : (first >>= next) input = .ok (result, rest)) :
    ∃ value middle, input = write value ++ middle ∧ next value middle = .ok (result, rest) := by
  rcases bind_eq_ok read with ⟨value, middle, first, rest⟩
  exact ⟨value, middle, (canonical _ _ _ first).symm, rest⟩

theorem eq_of_write_append_eq {α : Type} {write : α → Bytes} {read : Decoder α} {a b : α}
    (readA : RoundTrip write read a) (readB : RoundTrip write read b) {x y : Bytes}
    (same : write a ++ x = write b ++ y) : a = b := by
  have both := readA x
  rw [same, readB y, Except.ok.injEq, Prod.mk.injEq] at both
  exact both.1.symm

theorem readBytes_append (message : String) (bytes rest : Bytes) :
    readBytes message bytes.length (bytes ++ rest) = .ok (bytes, rest) := by
  simp [readBytes]

theorem readBytes_eq_ok {message : String} {count : Nat} {input bytes rest : Bytes}
    (read : readBytes message count input = .ok (bytes, rest)) :
    bytes.length = count ∧ bytes ++ rest = input := by
  unfold readBytes at read
  split at read
  · cases read
    exact ⟨by simp only [List.length_take]; omega, List.take_append_drop count input⟩
  · cases read

theorem readByte_eq_ok {message : String} {input rest : Bytes} {byte : UInt8}
    (read : readByte message input = .ok (byte, rest)) : byte :: rest = input := by
  cases input with
  | nil => cases read
  | cons head tail => cases read; rfl

/-- The `width` low bytes of `value`, least significant first. -/
def writeLE : Nat → Nat → Bytes
  | 0, _ => []
  | width + 1, value => UInt8.ofNat (value % 256) :: writeLE width (value / 256)

/-- The number whose little-endian digits are `bytes`. -/
def valueLE : Bytes → Nat
  | [] => 0
  | byte :: rest => byte.toNat + 256 * valueLE rest

@[simp] theorem writeLE_length (width value : Nat) : (writeLE width value).length = width := by
  induction width generalizing value with
  | zero => rfl
  | succ width ih => simp [writeLE, ih]

theorem valueLE_writeLE (width value : Nat) (fits : value < 256 ^ width) :
    valueLE (writeLE width value) = value := by
  induction width generalizing value with
  | zero => simp at fits; simp [writeLE, valueLE, fits]
  | succ width ih =>
      have quotient : value / 256 < 256 ^ width := by
        rw [Nat.div_lt_iff_lt_mul (by decide)]
        simpa [Nat.pow_succ] using fits
      have low : (UInt8.ofNat (value % 256)).toNat = value % 256 := by
        simp [Nat.mod_mod_of_dvd]
      simp only [writeLE, valueLE, low, ih _ quotient]
      omega

theorem valueLE_lt (bytes : Bytes) : valueLE bytes < 256 ^ bytes.length := by
  induction bytes with
  | nil => simp [valueLE]
  | cons byte rest ih =>
      have digit := byte.toNat_lt
      simp only [valueLE, List.length_cons, Nat.pow_succ]
      omega

theorem writeLE_valueLE (bytes : Bytes) : writeLE bytes.length (valueLE bytes) = bytes := by
  induction bytes with
  | nil => rfl
  | cons byte rest ih =>
      have digit := byte.toNat_lt
      have low : (byte.toNat + 256 * valueLE rest) % 256 = byte.toNat := by omega
      have high : (byte.toNat + 256 * valueLE rest) / 256 = valueLE rest := by omega
      simp only [List.length_cons, writeLE, valueLE, low, high, ih, UInt8.ofNat_toNat]

/-- A little-endian number `width` bytes wide. -/
def readLE (message : String) (width : Nat) : Decoder Nat :=
  valueLE <$> readBytes message width

theorem readLE_roundTrip (message : String) (width value : Nat) (fits : value < 256 ^ width) :
    RoundTrip (writeLE width) (readLE message width) value := by
  intro rest
  have read := readBytes_append message (writeLE width value) rest
  rw [writeLE_length] at read
  rw [readLE, map_of_ok read, valueLE_writeLE width value fits]

theorem readLE_eq_ok {message : String} {width : Nat} {input rest : Bytes} {value : Nat}
    (read : readLE message width input = .ok (value, rest)) :
    value < 256 ^ width ∧ writeLE width value ++ rest = input := by
  rcases map_eq_ok read with ⟨bytes, taken, rfl⟩
  rcases readBytes_eq_ok taken with ⟨length, rfl⟩
  subst length
  exact ⟨valueLE_lt bytes, by rw [writeLE_valueLE]⟩

/-- `count` values, one after another. -/
def readList {α : Type} (item : Decoder α) : Nat → Decoder (List α)
  | 0 => pure []
  | count + 1 => do
      let head ← item
      let tail ← readList item count
      return head :: tail

theorem readList_roundTrip {α : Type} (write : α → Bytes) (item : Decoder α) (values : List α)
    (each : ∀ value ∈ values, RoundTrip write item value) :
    RoundTrip (fun values => values.flatMap write) (readList item values.length) values := by
  induction values with
  | nil => intro rest; rfl
  | cons head tail ih =>
      intro rest
      have first := each head (by simp) (tail.flatMap write ++ rest)
      have later := ih (fun value member => each value (by simp [member])) rest
      simp only [List.flatMap_cons, List.append_assoc, List.length_cons, readList]
      rw [bind_of_ok first, bind_of_ok later]
      rfl

theorem readList_eq_ok {α : Type} {write : α → Bytes} {item : Decoder α}
    (canonical : Canonical write item) {count : Nat} {input rest : Bytes} {values : List α}
    (read : readList item count input = .ok (values, rest)) :
    values.length = count ∧ values.flatMap write ++ rest = input := by
  induction count generalizing input values with
  | zero => cases read; exact ⟨rfl, rfl⟩
  | succ count ih =>
      rcases bind_eq_ok read with ⟨head, middle, first, read⟩
      rcases bind_eq_ok read with ⟨tail, after, later, read⟩
      cases read
      rcases ih later with ⟨length, encoded⟩
      refine ⟨by simp [length], ?_⟩
      rw [List.flatMap_cons, List.append_assoc, encoded, canonical _ _ _ first]

theorem readList_forall {α : Type} {item : Decoder α} {P : α → Prop}
    (each : ∀ {input : Bytes} {value : α} {rest : Bytes}, item input = .ok (value, rest) → P value)
    {count : Nat} {input rest : Bytes} {values : List α}
    (read : readList item count input = .ok (values, rest)) : ∀ value ∈ values, P value := by
  induction count generalizing input values with
  | zero => cases read; simp
  | succ count ih =>
      rcases bind_eq_ok read with ⟨head, middle, first, read⟩
      rcases bind_eq_ok read with ⟨tail, after, later, read⟩
      cases read
      intro value member
      rcases List.mem_cons.mp member with rfl | inTail
      · exact each first
      · exact ih later value inTail

end Wire
