import Elements.Wire.Decoder

/-! The lowest layer of `serialize.h`: fixed-width little-endian integers,
the CompactSize length prefix and the vector formats built on it. -/

namespace Elements

open Wire Wire.Decoder

/-- What `CDataStream::read` throws when the data runs out. -/
def endOfData : String := "CDataStream::read(): end of data"

def MAX_SIZE : Nat := 0x02000000

def serWritedata8 (obj : UInt8) : Bytes := [obj]
def serWritedata16 (obj : UInt16) : Bytes := writeLE 2 obj.toNat
def serWritedata32 (obj : UInt32) : Bytes := writeLE 4 obj.toNat
def serWritedata64 (obj : UInt64) : Bytes := writeLE 8 obj.toNat

def serReaddata8 : Decoder UInt8 := readByte endOfData
def serReaddata16 : Decoder UInt16 := UInt16.ofNat <$> readLE endOfData 2
def serReaddata32 : Decoder UInt32 := UInt32.ofNat <$> readLE endOfData 4
def serReaddata64 : Decoder UInt64 := UInt64.ofNat <$> readLE endOfData 8

theorem serReaddata8_roundTrip (obj : UInt8) : RoundTrip serWritedata8 serReaddata8 obj :=
  fun _ => rfl

theorem serReaddata8_canonical : Canonical serWritedata8 serReaddata8 :=
  fun _ _ _ read => readByte_eq_ok read

theorem serReaddata16_roundTrip (obj : UInt16) : RoundTrip serWritedata16 serReaddata16 obj := by
  intro rest
  have read := readLE_roundTrip endOfData 2 obj.toNat (by simpa using obj.toNat_lt) rest
  rw [serReaddata16, serWritedata16, map_of_ok read, UInt16.ofNat_toNat]

theorem serReaddata32_roundTrip (obj : UInt32) : RoundTrip serWritedata32 serReaddata32 obj := by
  intro rest
  have read := readLE_roundTrip endOfData 4 obj.toNat (by simpa using obj.toNat_lt) rest
  rw [serReaddata32, serWritedata32, map_of_ok read, UInt32.ofNat_toNat]

theorem serReaddata64_roundTrip (obj : UInt64) : RoundTrip serWritedata64 serReaddata64 obj := by
  intro rest
  have read := readLE_roundTrip endOfData 8 obj.toNat (by simpa using obj.toNat_lt) rest
  rw [serReaddata64, serWritedata64, map_of_ok read, UInt64.ofNat_toNat]

theorem serReaddata16_canonical : Canonical serWritedata16 serReaddata16 := by
  intro input obj rest read
  rcases map_eq_ok read with ⟨value, digits, rfl⟩
  rcases readLE_eq_ok digits with ⟨fits, encoded⟩
  have exact : (UInt16.ofNat value).toNat = value := by simp; omega
  rw [serWritedata16, exact, encoded]

theorem serReaddata32_canonical : Canonical serWritedata32 serReaddata32 := by
  intro input obj rest read
  rcases map_eq_ok read with ⟨value, digits, rfl⟩
  rcases readLE_eq_ok digits with ⟨fits, encoded⟩
  have exact : (UInt32.ofNat value).toNat = value := by simp; omega
  rw [serWritedata32, exact, encoded]

theorem serReaddata64_canonical : Canonical serWritedata64 serReaddata64 := by
  intro input obj rest read
  rcases map_eq_ok read with ⟨value, digits, rfl⟩
  rcases readLE_eq_ok digits with ⟨fits, encoded⟩
  have exact : (UInt64.ofNat value).toNat = value := by simp; omega
  rw [serWritedata64, exact, encoded]

def GetSizeOfCompactSize (nSize : UInt64) : Nat :=
  if nSize < 253 then 1
  else if nSize ≤ 0xffff then 3
  else if nSize ≤ 0xffffffff then 5
  else 9

def WriteCompactSize (nSize : UInt64) : Bytes :=
  if nSize < 253 then serWritedata8 nSize.toUInt8
  else if nSize ≤ 0xffff then serWritedata8 253 ++ serWritedata16 nSize.toUInt16
  else if nSize ≤ 0xffffffff then serWritedata8 254 ++ serWritedata32 nSize.toUInt32
  else serWritedata8 255 ++ serWritedata64 nSize

def nonCanonicalCompactSize : String := "non-canonical ReadCompactSize()"
def compactSizeTooLarge : String := "ReadCompactSize(): size too large"

/-- The value after the marker byte `chSize`, refusing a longer form than
the value needs. -/
def readCompactSizeBody (chSize : UInt8) : Decoder UInt64 :=
  if chSize < 253 then pure chSize.toUInt64
  else if chSize = 253 then do
    let nSizeRet ← serReaddata16
    if nSizeRet < 253 then fail nonCanonicalCompactSize else pure nSizeRet.toUInt64
  else if chSize = 254 then do
    let nSizeRet ← serReaddata32
    if nSizeRet < 0x10000 then fail nonCanonicalCompactSize else pure nSizeRet.toUInt64
  else do
    let nSizeRet ← serReaddata64
    if nSizeRet < 0x100000000 then fail nonCanonicalCompactSize else pure nSizeRet

def ReadCompactSize (rangeCheck : Bool) : Decoder UInt64 := do
  let chSize ← serReaddata8
  let nSizeRet ← readCompactSizeBody chSize
  if rangeCheck && MAX_SIZE < nSizeRet.toNat then fail compactSizeTooLarge else pure nSizeRet

/-- The length prefix of a vector, as `WriteCompactSize(os, v.size())`. -/
def writeLength {α : Type} (items : List α) : Bytes := WriteCompactSize (UInt64.ofNat items.length)

theorem readCompactSizeBody_roundTrip (nSize : UInt64) (rest : Bytes) :
    (serReaddata8 >>= readCompactSizeBody) (WriteCompactSize nSize ++ rest) = .ok (nSize, rest) := by
  have value := nSize.toNat_lt
  unfold WriteCompactSize
  split_ifs with small medium large
  · have marker : nSize.toUInt8 < 253 := by
      simp [UInt64.lt_iff_toNat_lt, UInt8.lt_iff_toNat_lt] at small ⊢; omega
    have back : nSize.toUInt8.toUInt64 = nSize := by
      apply UInt64.toNat_inj.mp; simp [UInt64.lt_iff_toNat_lt] at small; simp; omega
    rw [bind_of_ok (serReaddata8_roundTrip _ rest), readCompactSizeBody, if_pos marker, back]
    rfl
  · have read := serReaddata16_roundTrip nSize.toUInt16 rest
    have canonical : ¬ nSize.toUInt16 < 253 := by
      simp [UInt64.lt_iff_toNat_lt, UInt16.lt_iff_toNat_lt] at small ⊢
      simp [UInt64.le_iff_toNat_le] at medium; omega
    have back : nSize.toUInt16.toUInt64 = nSize := by
      apply UInt64.toNat_inj.mp; simp [UInt64.le_iff_toNat_le] at medium; simp; omega
    rw [List.append_assoc, bind_of_ok (serReaddata8_roundTrip _ _), readCompactSizeBody,
      if_neg (by decide), if_pos rfl, bind_of_ok read, if_neg canonical, back]
    rfl
  · have read := serReaddata32_roundTrip nSize.toUInt32 rest
    have canonical : ¬ nSize.toUInt32 < 0x10000 := by
      simp [UInt64.le_iff_toNat_le] at medium large
      simp [UInt32.lt_iff_toNat_lt]; omega
    have back : nSize.toUInt32.toUInt64 = nSize := by
      apply UInt64.toNat_inj.mp; simp [UInt64.le_iff_toNat_le] at large; simp; omega
    rw [List.append_assoc, bind_of_ok (serReaddata8_roundTrip _ _), readCompactSizeBody,
      if_neg (by decide), if_neg (by decide), if_pos rfl, bind_of_ok read, if_neg canonical, back]
    rfl
  · have read := serReaddata64_roundTrip nSize rest
    have canonical : ¬ nSize < 0x100000000 := by
      simp [UInt64.le_iff_toNat_le] at large
      simp [UInt64.lt_iff_toNat_lt]; omega
    rw [List.append_assoc, bind_of_ok (serReaddata8_roundTrip _ _), readCompactSizeBody,
      if_neg (by decide), if_neg (by decide), if_neg (by decide), bind_of_ok read, if_neg canonical]
    rfl

theorem length_WriteCompactSize (nSize : UInt64) : (WriteCompactSize nSize).length = GetSizeOfCompactSize nSize := by
  unfold WriteCompactSize GetSizeOfCompactSize
  split_ifs <;> simp [serWritedata8, serWritedata16, serWritedata32, serWritedata64]

theorem ReadCompactSize_roundTrip (rangeCheck : Bool) (nSize : UInt64)
    (inRange : rangeCheck = true → nSize.toNat ≤ MAX_SIZE) :
    RoundTrip WriteCompactSize (ReadCompactSize rangeCheck) nSize := by
  intro rest
  have body := readCompactSizeBody_roundTrip nSize rest
  have notLarge : (rangeCheck && decide (MAX_SIZE < nSize.toNat)) = false := by
    cases rangeCheck with
    | false => rfl
    | true => simpa using inRange rfl
  rw [ReadCompactSize, ← bind_assoc, bind_of_ok body, notLarge]
  rfl

end Elements

namespace Elements

open Wire Wire.Decoder

theorem readCompactSizeBody_eq_ok {chSize : UInt8} {input rest : Bytes} {nSize : UInt64}
    (read : readCompactSizeBody chSize input = .ok (nSize, rest)) :
    WriteCompactSize nSize ++ rest = serWritedata8 chSize ++ input := by
  unfold readCompactSizeBody at read
  split_ifs at read with small marker253 marker254
  · cases read
    have back : chSize.toUInt64.toUInt8 = chSize := by
      apply UInt8.toNat_inj.mp; simp
    have fits : chSize.toUInt64 < 253 := by
      simp [UInt64.lt_iff_toNat_lt, UInt8.lt_iff_toNat_lt] at small ⊢; exact small
    rw [WriteCompactSize, if_pos fits, back]
  · rcases bind_eq_ok read with ⟨value, middle, payload, read⟩
    split_ifs at read with short
    · cases read
    · cases read
      have bound := value.toNat_lt
      simp [UInt16.lt_iff_toNat_lt] at short
      have notSmall : ¬ value.toUInt64 < 253 := by simp [UInt64.lt_iff_toNat_lt]; omega
      have medium : value.toUInt64 ≤ 0xffff := by simp [UInt64.le_iff_toNat_le]; omega
      have back : value.toUInt64.toUInt16 = value := by apply UInt16.toNat_inj.mp; simp
      rw [WriteCompactSize, if_neg notSmall, if_pos medium, back, marker253, List.append_assoc,
        serReaddata16_canonical _ _ _ payload]
  · rcases bind_eq_ok read with ⟨value, middle, payload, read⟩
    split_ifs at read with short
    · cases read
    · cases read
      have bound := value.toNat_lt
      simp [UInt32.lt_iff_toNat_lt] at short
      have notSmall : ¬ value.toUInt64 < 253 := by simp [UInt64.lt_iff_toNat_lt]; omega
      have notMedium : ¬ value.toUInt64 ≤ 0xffff := by simp [UInt64.le_iff_toNat_le]; omega
      have large : value.toUInt64 ≤ 0xffffffff := by simp [UInt64.le_iff_toNat_le]; omega
      have back : value.toUInt64.toUInt32 = value := by apply UInt32.toNat_inj.mp; simp
      rw [WriteCompactSize, if_neg notSmall, if_neg notMedium, if_pos large, back, marker254,
        List.append_assoc, serReaddata32_canonical _ _ _ payload]
  · rcases bind_eq_ok read with ⟨value, middle, payload, read⟩
    split_ifs at read with short
    · cases read
    · cases read
      simp [UInt64.lt_iff_toNat_lt] at short
      have notSmall : ¬ nSize < 253 := by simp [UInt64.lt_iff_toNat_lt]; omega
      have notMedium : ¬ nSize ≤ 0xffff := by simp [UInt64.le_iff_toNat_le]; omega
      have notLarge : ¬ nSize ≤ 0xffffffff := by simp [UInt64.le_iff_toNat_le]; omega
      have marker : chSize = 255 := by
        apply UInt8.toNat_inj.mp
        have := chSize.toNat_lt
        simp [UInt8.lt_iff_toNat_lt, ← UInt8.toNat_inj] at small marker253 marker254
        simp; omega
      rw [WriteCompactSize, if_neg notSmall, if_neg notMedium, if_neg notLarge, marker,
        List.append_assoc, serReaddata64_canonical _ _ _ payload]

theorem ReadCompactSize_eq_ok {rangeCheck : Bool} {input rest : Bytes} {nSize : UInt64}
    (read : ReadCompactSize rangeCheck input = .ok (nSize, rest)) :
    (rangeCheck = true → nSize.toNat ≤ MAX_SIZE) ∧ WriteCompactSize nSize ++ rest = input := by
  rcases bind_eq_ok read with ⟨chSize, middle, marker, read⟩
  rcases bind_eq_ok read with ⟨value, after, body, read⟩
  split_ifs at read with large
  · cases read
  · cases read
    refine ⟨fun checked => by simpa [checked] using large, ?_⟩
    rw [readCompactSizeBody_eq_ok body, serReaddata8_canonical _ _ _ marker]

theorem ReadCompactSize_canonical (rangeCheck : Bool) :
    Canonical WriteCompactSize (ReadCompactSize rangeCheck) :=
  fun _ _ _ read => (ReadCompactSize_eq_ok read).2

end Elements

namespace Elements

open Wire Wire.Decoder

/-- `std::vector<unsigned char>`, `CScript` and other byte vectors, written as
one blob after their length. -/
def serializeBytes (v : Bytes) : Bytes := writeLength v ++ v

def unserializeBytes : Decoder Bytes := do
  let nSize ← ReadCompactSize true
  readBytes endOfData nSize.toUInt32.toNat

/-- A vector of objects, through `VectorFormatter`. -/
def serializeVector {α : Type} (ser : α → Bytes) (v : List α) : Bytes :=
  writeLength v ++ v.flatMap ser

theorem length_serializeVector {α : Type} (ser : α → Bytes) (v : List α) :
    (serializeVector ser v).length = (writeLength v).length + (v.map fun item => (ser item).length).sum := by
  simp [serializeVector, List.length_flatMap]

def unserializeVector {α : Type} (item : Decoder α) : Decoder (List α) := do
  let size ← ReadCompactSize true
  readList item size.toNat

/-- Every vector in a round trip stays within the length `ReadCompactSize` admits. -/
def Fits {α : Type} (v : List α) : Prop := v.length ≤ MAX_SIZE

instance {α : Type} (v : List α) : Decidable (Fits v) := inferInstanceAs (Decidable (_ ≤ _))

theorem length_toNat {α : Type} {v : List α} (fits : Fits v) :
    (UInt64.ofNat v.length).toNat = v.length := by
  unfold Fits MAX_SIZE at fits
  simp; omega

theorem readLength_roundTrip {α : Type} {v : List α} (fits : Fits v) (rest : Bytes) :
    ReadCompactSize true (writeLength v ++ rest) = .ok (UInt64.ofNat v.length, rest) :=
  ReadCompactSize_roundTrip true _ (fun _ => by rw [length_toNat fits]; exact fits) rest

theorem unserializeBytes_roundTrip (v : Bytes) (fits : Fits v) :
    RoundTrip serializeBytes unserializeBytes v := by
  intro rest
  have count : (UInt64.ofNat v.length).toUInt32.toNat = v.length := by
    unfold Fits MAX_SIZE at fits
    simp; omega
  rw [unserializeBytes, serializeBytes, List.append_assoc, bind_of_ok (readLength_roundTrip fits _),
    count, readBytes_append]

theorem unserializeBytes_eq_ok {input rest v : Bytes}
    (read : unserializeBytes input = .ok (v, rest)) : Fits v ∧ serializeBytes v ++ rest = input := by
  rcases bind_eq_ok read with ⟨nSize, middle, prefixed, read⟩
  rcases ReadCompactSize_eq_ok prefixed with ⟨inRange, encoded⟩
  rcases readBytes_eq_ok read with ⟨length, bytes⟩
  have small := inRange rfl
  have exact : nSize.toUInt32.toNat = nSize.toNat := by unfold MAX_SIZE at small; simp; omega
  have same : UInt64.ofNat v.length = nSize := by
    apply UInt64.toNat_inj.mp; rw [length, exact]; simp
  refine ⟨by unfold Fits; rw [length, exact]; exact small, ?_⟩
  rw [serializeBytes, writeLength, same, List.append_assoc, bytes, encoded]

theorem unserializeBytes_canonical : Canonical serializeBytes unserializeBytes :=
  fun _ _ _ read => (unserializeBytes_eq_ok read).2

theorem unserializeVector_roundTrip {α : Type} (ser : α → Bytes) (item : Decoder α) (v : List α)
    (fits : Fits v) (each : ∀ value ∈ v, RoundTrip ser item value) :
    RoundTrip (serializeVector ser) (unserializeVector item) v := by
  intro rest
  rw [unserializeVector, serializeVector, List.append_assoc, bind_of_ok (readLength_roundTrip fits _),
    length_toNat fits]
  exact readList_roundTrip ser item v each rest

theorem unserializeVector_eq_ok {α : Type} {ser : α → Bytes} {item : Decoder α}
    (canonical : Canonical ser item) {input rest : Bytes} {v : List α}
    (read : unserializeVector item input = .ok (v, rest)) :
    Fits v ∧ serializeVector ser v ++ rest = input := by
  rcases bind_eq_ok read with ⟨size, middle, prefixed, read⟩
  rcases ReadCompactSize_eq_ok prefixed with ⟨inRange, encoded⟩
  rcases readList_eq_ok canonical read with ⟨length, items⟩
  have same : UInt64.ofNat v.length = size := by
    apply UInt64.toNat_inj.mp; rw [length]; simp
  refine ⟨by unfold Fits; rw [length]; exact inRange rfl, ?_⟩
  rw [serializeVector, writeLength, same, List.append_assoc, items, encoded]

theorem unserializeVector_forall {α : Type} {item : Decoder α} {P : α → Prop}
    (each : ∀ {input : Bytes} {value : α} {rest : Bytes}, item input = .ok (value, rest) → P value)
    {input rest : Bytes} {v : List α} (read : unserializeVector item input = .ok (v, rest)) :
    ∀ value ∈ v, P value := by
  rcases bind_eq_ok read with ⟨size, middle, -, read⟩
  exact readList_forall each read

theorem unserializeVector_canonical {α : Type} {ser : α → Bytes} {item : Decoder α}
    (canonical : Canonical ser item) : Canonical (serializeVector ser) (unserializeVector item) :=
  fun _ _ _ read => (unserializeVector_eq_ok canonical read).2

end Elements
