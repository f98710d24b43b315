import Elements.Primitives.WireFormat
import Elements.Primitives.Block

/-! The block header wire format read back. The writer picks the dynamic
federation layout when the parameters are not null and marks it with the HF
bit; the reader picks it from the sign of the version word. The two agree on
every header whose version is non-negative and whose parameter entries are
ones the reader produces. They part on bytes that carry the HF bit and two
null entries: such bytes decode to a header with null parameters, which the
writer puts in the legacy layout. -/

namespace Elements

open Wire Wire.Decoder

namespace CProof

def carried (getHash : Bool) (proof : CProof) : CProof :=
  if !getHash then proof else ⟨proof.challenge, []⟩

theorem unserialize_roundTrip (getHash : Bool) (proof : CProof) (challenge : Fits proof.challenge)
    (solution : Fits proof.solution) (rest : Bytes) :
    unserialize getHash (proof.serialize getHash ++ rest) = .ok (proof.carried getHash, rest) := by
  simp only [serialize, unserialize, List.append_assoc]
  rw [bind_of_ok (unserializeBytes_roundTrip _ challenge _)]
  cases getHash
  · simp only [Bool.not_false, if_true]
    rw [bind_of_ok (unserializeBytes_roundTrip _ solution _)]
    rfl
  · rfl

theorem unserialize_eq_ok {getHash : Bool} {input rest : Bytes} {proof : CProof}
    (read : unserialize getHash input = .ok (proof, rest)) :
    proof.carried getHash = proof ∧ proof.serialize getHash ++ rest = input := by
  rcases bind_eq_ok_of_canonical unserializeBytes_canonical read with ⟨challenge, _, rfl, read₁⟩
  cases getHash
  · rcases bind_eq_ok_of_canonical unserializeBytes_canonical read₁ with ⟨solution, _, rfl, read₂⟩
    cases read₂
    simp [carried, serialize]
  · cases read₁
    simp [carried, serialize]

end CProof

namespace DynaFedParamEntry

/-- The entries the reader produces: a type carries only its own fields (a
null entry none, a pruned one no fedpeg data, a full one no elided root), and
every vector can be read. -/
structure Encodable (entry : DynaFedParamEntry) : Prop where
  layout : entry = null ∨
    (entry.m_serialize_type = 1 ∧ entry.m_fedpeg_program = [] ∧ entry.m_fedpegscript = [] ∧
      entry.m_extension_space = []) ∨
    (entry.m_serialize_type = 2 ∧ entry.m_elided_root = Uint256.zero)
  signblockscript : Fits entry.m_signblockscript
  fedpeg_program : Fits entry.m_fedpeg_program
  fedpegscript : Fits entry.m_fedpegscript
  extension_space : StackFits entry.m_extension_space

theorem null_encodable : null.Encodable :=
  ⟨.inl rfl, by decide, by decide, by decide, ⟨by decide, fun _ mem => absurd mem List.not_mem_nil⟩⟩

theorem unserialize_roundTrip (entry : DynaFedParamEntry) (encodable : entry.Encodable) :
    RoundTrip serialize unserialize entry := by
  intro rest
  rcases encodable with ⟨layout, signblockscript, fedpeg_program, fedpegscript, extension_space⟩
  rcases entry with ⟨type, script, limit, program, fedpegscript', extension, root⟩
  rcases layout with null | ⟨rfl, rfl, rfl, rfl⟩ | ⟨rfl, rfl⟩
  · cases null
    rfl
  · -- a pruned entry: the signing fields and the elided root
    simp only [serialize, serializeFields, unserialize, List.append_assoc]
    rw [bind_of_ok (serReaddata8_roundTrip _ _)]
    simp only [show (1 : UInt8) ≠ 0 by decide, if_false, if_true, List.append_assoc]
    rw [bind_of_ok (unserializeBytes_roundTrip script signblockscript _),
      bind_of_ok (serReaddata32_roundTrip _ _), bind_of_ok (Uint256.unserialize_roundTrip _ _)]
    rfl
  · -- a full entry: every field but the elided root
    simp only [serialize, serializeFields, unserialize, List.append_assoc]
    rw [bind_of_ok (serReaddata8_roundTrip _ _)]
    simp only [show (2 : UInt8) ≠ 0 by decide, show (2 : UInt8) ≠ 1 by decide, if_false, if_true,
      List.append_assoc]
    rw [bind_of_ok (unserializeBytes_roundTrip script signblockscript _),
      bind_of_ok (serReaddata32_roundTrip _ _),
      bind_of_ok (unserializeBytes_roundTrip program fedpeg_program _),
      bind_of_ok (unserializeBytes_roundTrip fedpegscript' fedpegscript _),
      bind_of_ok (unserializeStack_roundTrip extension extension_space _)]
    rfl

theorem unserialize_canonical : Canonical serialize unserialize := by
  intro input entry rest read
  rcases bind_eq_ok_of_canonical serReaddata8_canonical read with ⟨type, _, rfl, read₁⟩
  -- the type byte selects the fields that follow it
  split_ifs at read₁ with isNull pruned full
  · cases read₁
    simp [serialize, serializeFields, DynaFedParamEntry.null, isNull]
  · rcases bind_eq_ok_of_canonical unserializeBytes_canonical read₁ with ⟨script, _, rfl, read₂⟩
    rcases bind_eq_ok_of_canonical serReaddata32_canonical read₂ with ⟨limit, _, rfl, read₃⟩
    rcases bind_eq_ok_of_canonical Uint256.unserialize_canonical read₃ with ⟨root, _, rfl, read₄⟩
    cases read₄
    simp [serialize, serializeFields, pruned]
  · have stackCanonical := unserializeVector_canonical unserializeBytes_canonical
    rcases bind_eq_ok_of_canonical unserializeBytes_canonical read₁ with ⟨script, _, rfl, read₂⟩
    rcases bind_eq_ok_of_canonical serReaddata32_canonical read₂ with ⟨limit, _, rfl, read₃⟩
    rcases bind_eq_ok_of_canonical unserializeBytes_canonical read₃ with ⟨program, _, rfl, read₄⟩
    rcases bind_eq_ok_of_canonical unserializeBytes_canonical read₄ with ⟨fedpegscript, _, rfl, read₅⟩
    rcases bind_eq_ok_of_canonical stackCanonical read₅ with ⟨extension, _, rfl, read₆⟩
    cases read₆
    simp [serialize, serializeFields, full]
  · cases read₁

end DynaFedParamEntry

namespace DynaFedParams

theorem unserialize_roundTrip (params : DynaFedParams) (current : params.m_current.Encodable)
    (proposed : params.m_proposed.Encodable) : RoundTrip serialize unserialize params := by
  intro rest
  simp only [serialize, unserialize, List.append_assoc]
  rw [bind_of_ok (DynaFedParamEntry.unserialize_roundTrip _ current _),
    bind_of_ok (DynaFedParamEntry.unserialize_roundTrip _ proposed _)]
  rfl

theorem unserialize_canonical : Canonical serialize unserialize := by
  intro input params rest read
  rcases bind_eq_ok_of_canonical DynaFedParamEntry.unserialize_canonical read with
    ⟨current, _, rfl, read₁⟩
  rcases bind_eq_ok_of_canonical DynaFedParamEntry.unserialize_canonical read₁ with
    ⟨proposed, _, rfl, read₂⟩
  cases read₂
  simp [serialize]

end DynaFedParams

namespace CBlockHeader

theorem toNat_DYNAFED_HF_MASK : DYNAFED_HF_MASK.toNat = 2 ^ 31 := rfl

theorem toInt32_lt_zero_iff (version : UInt32) : version.toInt32 < 0 ↔ 2 ^ 31 ≤ version.toNat := by
  rw [Int32.lt_iff_toInt_lt, ← Int32.toInt_toBitVec, UInt32.toBitVec_toInt32, Int32.toInt_zero,
    BitVec.toInt_neg_iff, UInt32.toNat_toBitVec]
  omega

theorem nonneg_iff (nVersion : Int32) : 0 ≤ nVersion ↔ nVersion.toUInt32.toNat < 2 ^ 31 := by
  have sign := toInt32_lt_zero_iff nVersion.toUInt32
  rw [Int32.toInt32_toUInt32] at sign
  rw [← Int32.not_lt, sign]
  omega

theorem toNat_clearHF (version : UInt32) :
    (~~~DYNAFED_HF_MASK &&& version).toNat = version.toNat % 2 ^ 31 := by
  rw [UInt32.toNat_and, show (~~~DYNAFED_HF_MASK).toNat = 2 ^ 31 - 1 from rfl, Nat.and_comm,
    Nat.and_two_pow_sub_one_eq_mod]

theorem toNat_setHF {version : UInt32} (clear : version.toNat < 2 ^ 31) :
    (version ||| DYNAFED_HF_MASK).toNat = version.toNat + 2 ^ 31 := by
  rw [UInt32.toNat_or, toNat_DYNAFED_HF_MASK, Nat.or_two_pow_eq_add_of_lt clear]

theorem clearHF_setHF {version : UInt32} (clear : version.toNat < 2 ^ 31) :
    ~~~DYNAFED_HF_MASK &&& (version ||| DYNAFED_HF_MASK) = version := by
  apply UInt32.toNat_inj.mp
  rw [toNat_clearHF, toNat_setHF clear]
  omega

theorem setHF_clearHF {version : UInt32} (set : 2 ^ 31 ≤ version.toNat) :
    (~~~DYNAFED_HF_MASK &&& version) ||| DYNAFED_HF_MASK = version := by
  have below : (~~~DYNAFED_HF_MASK &&& version).toNat < 2 ^ 31 := by
    rw [toNat_clearHF]
    exact Nat.mod_lt _ (by decide)
  apply UInt32.toNat_inj.mp
  rw [toNat_setHF below, toNat_clearHF]
  have word := version.toNat_lt
  omega

theorem clearHF_of_lt {version : UInt32} (clear : version.toNat < 2 ^ 31) :
    ~~~DYNAFED_HF_MASK &&& version = version := by
  apply UInt32.toNat_inj.mp
  rw [toNat_clearHF, Nat.mod_eq_of_lt clear]

def carriedDynaFed (ctx : HeaderContext) (header : CBlockHeader) : CBlockHeader :=
  { null with
    nVersion := header.nVersion, hashPrevBlock := header.hashPrevBlock,
    hashMerkleRoot := header.hashMerkleRoot, nTime := header.nTime,
    block_height := header.block_height, m_dynafed_params := header.m_dynafed_params,
    m_signblock_witness :=
      if !ctx.getHash && ctx.fAllowWitness then header.m_signblock_witness else ⟨[]⟩ }

def carriedLegacy (ctx : HeaderContext) (header : CBlockHeader) : CBlockHeader :=
  { null with
    nVersion := header.nVersion, hashPrevBlock := header.hashPrevBlock,
    hashMerkleRoot := header.hashMerkleRoot, nTime := header.nTime,
    block_height := if ctx.g_con_blockheightinheader then header.block_height else 0,
    nBits := if ctx.g_signed_blocks then 0 else header.nBits,
    nNonce := if ctx.g_signed_blocks then 0 else header.nNonce,
    proof := if ctx.g_signed_blocks then header.proof.carried ctx.getHash else CProof.null }

/-- The fields of `header` its layout carries. -/
def carried (ctx : HeaderContext) (header : CBlockHeader) : CBlockHeader :=
  if header.m_dynafed_params.IsNull then header.carriedLegacy ctx else header.carriedDynaFed ctx

structure Encodable (header : CBlockHeader) : Prop where
  nVersion : 0 ≤ header.nVersion
  params : header.m_dynafed_params.IsNull = false →
    header.m_dynafed_params.m_current.Encodable ∧ header.m_dynafed_params.m_proposed.Encodable
  witness : StackFits header.m_signblock_witness.stack
  challenge : Fits header.proof.challenge
  solution : Fits header.proof.solution

section Layouts

variable (ctx : HeaderContext)

theorem unserializeDynaFed_roundTrip (header : CBlockHeader) (current : header.m_dynafed_params.m_current.Encodable)
    (proposed : header.m_dynafed_params.m_proposed.Encodable)
    (witness : StackFits header.m_signblock_witness.stack) (rest : Bytes) :
    unserializeDynaFed ctx header.nVersion (header.serializeDynaFed ctx ++ rest) =
      .ok (header.carriedDynaFed ctx, rest) := by
  simp only [serializeDynaFed, unserializeDynaFed, List.append_assoc]
  rw [bind_of_ok (Uint256.unserialize_roundTrip _ _), bind_of_ok (Uint256.unserialize_roundTrip _ _),
    bind_of_ok (serReaddata32_roundTrip _ _), bind_of_ok (serReaddata32_roundTrip _ _),
    bind_of_ok (DynaFedParams.unserialize_roundTrip _ current proposed _)]
  -- the witness stack is on the wire only outside hashes and when witnesses are allowed
  by_cases present : (!ctx.getHash && ctx.fAllowWitness) = true
  · simp only [present, if_true]
    rw [bind_of_ok (unserializeStack_roundTrip _ witness _)]
    simp [carriedDynaFed, present]
  · simp only [present, if_false, Bool.false_eq_true, List.nil_append]
    simp [carriedDynaFed, present]

theorem readHeight_roundTrip (height : UInt32) (rest : Bytes) :
    (if ctx.g_con_blockheightinheader then serReaddata32 else pure 0)
        ((if ctx.g_con_blockheightinheader then serWritedata32 height else []) ++ rest) =
      .ok (if ctx.g_con_blockheightinheader then height else 0, rest) := by
  cases ctx.g_con_blockheightinheader
  · rfl
  · exact serReaddata32_roundTrip height rest

theorem unserializeLegacy_roundTrip (header : CBlockHeader) (challenge : Fits header.proof.challenge)
    (solution : Fits header.proof.solution) (rest : Bytes) :
    unserializeLegacy ctx header.nVersion (header.serializeLegacy ctx ++ rest) =
      .ok (header.carriedLegacy ctx, rest) := by
  simp only [serializeLegacy, unserializeLegacy, List.append_assoc]
  rw [bind_of_ok (Uint256.unserialize_roundTrip _ _), bind_of_ok (Uint256.unserialize_roundTrip _ _),
    bind_of_ok (serReaddata32_roundTrip _ _), bind_of_ok (readHeight_roundTrip ctx _ _)]
  -- then the proof, or the proof of work, as `g_signed_blocks` selects
  cases signed : ctx.g_signed_blocks
  · simp only [Bool.false_eq_true, if_false, List.append_assoc]
    rw [bind_of_ok (serReaddata32_roundTrip _ _), bind_of_ok (serReaddata32_roundTrip _ _)]
    simp [carriedLegacy, signed, null]
  · simp only [if_true]
    rw [bind_of_ok (CProof.unserialize_roundTrip _ _ challenge solution _)]
    simp [carriedLegacy, signed, null]

theorem unserializeDynaFed_eq_ok {nVersion : Int32} {input rest : Bytes} {header : CBlockHeader}
    (read : unserializeDynaFed ctx nVersion input = .ok (header, rest)) :
    header.nVersion = nVersion ∧ header.serializeDynaFed ctx ++ rest = input := by
  rcases bind_eq_ok_of_canonical Uint256.unserialize_canonical read with ⟨prev, _, rfl, read₁⟩
  rcases bind_eq_ok_of_canonical Uint256.unserialize_canonical read₁ with ⟨merkle, _, rfl, read₂⟩
  rcases bind_eq_ok_of_canonical serReaddata32_canonical read₂ with ⟨nTime, _, rfl, read₃⟩
  rcases bind_eq_ok_of_canonical serReaddata32_canonical read₃ with ⟨height, _, rfl, read₄⟩
  rcases bind_eq_ok_of_canonical DynaFedParams.unserialize_canonical read₄ with
    ⟨params, _, rfl, read₅⟩
  by_cases present : (!ctx.getHash && ctx.fAllowWitness) = true
  · simp only [present, if_true] at read₅
    rcases bind_eq_ok_of_canonical (unserializeVector_canonical unserializeBytes_canonical) read₅
      with ⟨stack, _, rfl, read₆⟩
    cases read₆
    simp [serializeDynaFed, present]
  · simp only [present, if_false, Bool.false_eq_true, pure_bind, pure_apply, Except.ok.injEq,
      Prod.mk.injEq] at read₅
    rcases read₅ with ⟨rfl, rfl⟩
    simp [serializeDynaFed, present]

theorem readHeight_eq_ok {input rest : Bytes} {height : UInt32}
    (read : (if ctx.g_con_blockheightinheader then serReaddata32 else pure 0) input =
      .ok (height, rest)) :
    (if ctx.g_con_blockheightinheader then serWritedata32 height else []) ++ rest = input := by
  cases heightInHeader : ctx.g_con_blockheightinheader
  · simp only [heightInHeader, Bool.false_eq_true, if_false, pure_apply, Except.ok.injEq,
      Prod.mk.injEq] at read
    rcases read with ⟨-, rfl⟩
    rfl
  · simp only [heightInHeader, if_true] at read ⊢
    exact serReaddata32_canonical _ _ _ read

theorem unserializeLegacy_eq_ok {nVersion : Int32} {input rest : Bytes} {header : CBlockHeader}
    (read : unserializeLegacy ctx nVersion input = .ok (header, rest)) :
    header.nVersion = nVersion ∧ header.m_dynafed_params = DynaFedParams.null ∧
      header.serializeLegacy ctx ++ rest = input := by
  rcases bind_eq_ok_of_canonical Uint256.unserialize_canonical read with ⟨prev, _, rfl, read₁⟩
  rcases bind_eq_ok_of_canonical Uint256.unserialize_canonical read₁ with ⟨merkle, _, rfl, read₂⟩
  rcases bind_eq_ok_of_canonical serReaddata32_canonical read₂ with ⟨nTime, _, rfl, read₃⟩
  rcases bind_eq_ok read₃ with ⟨height, _, heightRead, read₄⟩
  rcases readHeight_eq_ok ctx heightRead with rfl
  -- then the proof or the proof of work, as the global selects
  cases signed : ctx.g_signed_blocks
  · simp only [signed, Bool.false_eq_true, if_false] at read₄
    rcases bind_eq_ok_of_canonical serReaddata32_canonical read₄ with ⟨nBits, _, rfl, read₅⟩
    rcases bind_eq_ok_of_canonical serReaddata32_canonical read₅ with ⟨nNonce, _, rfl, read₆⟩
    cases read₆
    simp [serializeLegacy, null, signed]
  · simp only [signed, if_true] at read₄
    rcases bind_eq_ok read₄ with ⟨proof, _, proofRead, read₅⟩
    rcases CProof.unserialize_eq_ok proofRead with ⟨-, rfl⟩
    cases read₅
    simp [serializeLegacy, null, signed]

end Layouts

/-- Whether bytes open with a version word that selects the dynamic federation
layout, as `Unserialize` tests it. -/
def dynaFedOnWire (input : Bytes) : Bool :=
  match serReaddata32 input with
  | .ok (version, _) => decide (version.toInt32 < 0)
  | .error _ => false

theorem dynaFedOnWire_append (version : UInt32) (body : Bytes) :
    dynaFedOnWire (serWritedata32 version ++ body) = decide (version.toInt32 < 0) := by
  simp [dynaFedOnWire, serReaddata32_roundTrip version body]

variable (ctx : HeaderContext)

theorem unserialize_roundTrip (header : CBlockHeader) (encodable : header.Encodable) (rest : Bytes) :
    unserialize ctx (header.serialize ctx ++ rest) = .ok (header.carried ctx, rest) := by
  have clear := (nonneg_iff header.nVersion).mp encodable.nVersion
  simp only [serialize, unserialize, carried, List.append_assoc]
  cases null : header.m_dynafed_params.IsNull
  · -- the dynamic federation layout, marked by the HF bit
    have negative : (header.nVersion.toUInt32 ||| DYNAFED_HF_MASK).toInt32 < 0 := by
      rw [toInt32_lt_zero_iff, toNat_setHF clear]
      omega
    rcases encodable.params null with ⟨current, proposed⟩
    simp only [Bool.not_false, if_true, Bool.false_eq_true, if_false]
    rw [bind_of_ok (serReaddata32_roundTrip _ _)]
    simp only [negative, if_true, clearHF_setHF clear, Int32.toInt32_toUInt32]
    exact unserializeDynaFed_roundTrip ctx header current proposed encodable.witness rest
  · -- the legacy layout, whose version word has the HF bit clear
    simp only [Bool.not_true, Bool.false_eq_true, if_false, if_true]
    rw [bind_of_ok (serReaddata32_roundTrip _ _)]
    simp only [clearHF_of_lt clear, Int32.toInt32_toUInt32]
    rw [if_neg (Int32.not_lt.mpr encodable.nVersion)]
    exact unserializeLegacy_roundTrip ctx header encodable.challenge encodable.solution rest

theorem serialize_eq_iff {input rest : Bytes} {header : CBlockHeader}
    (read : unserialize ctx input = .ok (header, rest)) :
    header.serialize ctx ++ rest = input ↔
      ¬(dynaFedOnWire input = true ∧ header.m_dynafed_params.IsNull = true) := by
  rcases bind_eq_ok_of_canonical serReaddata32_canonical read with ⟨version, body, rfl, read₁⟩
  rw [dynaFedOnWire_append]
  by_cases negative : version.toInt32 < 0
  · have set := (toInt32_lt_zero_iff version).mp negative
    simp only [negative, if_true] at read₁
    rcases unserializeDynaFed_eq_ok ctx read₁ with ⟨nVersion, encoded⟩
    have word : header.nVersion.toUInt32 = ~~~DYNAFED_HF_MASK &&& version := by
      rw [nVersion, UInt32.toUInt32_toInt32]
    cases null : header.m_dynafed_params.IsNull
    · -- non-null parameters: the writer sets the HF bit back
      refine iff_of_true ?_ (by simp)
      simp only [serialize, null, Bool.not_false, if_true, word, setHF_clearHF set,
        List.append_assoc, encoded]
    · -- null parameters: the writer keeps the HF bit clear and takes the legacy layout
      refine iff_of_false ?_ (by simp [negative])
      intro same
      simp only [serialize, null, Bool.not_true, Bool.false_eq_true, if_false, word,
        List.append_assoc] at same
      have cleared := congrArg UInt32.toNat
        (eq_of_write_append_eq (serReaddata32_roundTrip _) (serReaddata32_roundTrip _) same)
      rw [toNat_clearHF] at cleared
      omega
  · -- a non-negative version: the legacy layout and null parameters on both sides
    have clear : version.toNat < 2 ^ 31 := by
      rw [toInt32_lt_zero_iff] at negative
      omega
    simp only [negative, if_false, clearHF_of_lt clear] at read₁
    rcases unserializeLegacy_eq_ok ctx read₁ with ⟨nVersion, params, encoded⟩
    refine iff_of_true ?_ (by simp [negative])
    simp only [serialize, params, show DynaFedParams.null.IsNull = true from rfl, Bool.not_true,
      Bool.false_eq_true, if_false, nVersion, UInt32.toUInt32_toInt32, List.append_assoc, encoded]

/-- Bytes with the HF bit and two null parameter entries decode to the default
header, and the writer puts that header in the legacy layout. -/
theorem serialize_flips_null_dynafed_params :
    let ctx : HeaderContext := ⟨false, true, false, true⟩
    let input : Bytes := serWritedata32 DYNAFED_HF_MASK ++ List.replicate 72 0 ++ [0, 0, 0]
    unserialize ctx input = .ok (null, []) ∧ null.serialize ctx ≠ input :=
  ⟨rfl, by decide⟩

/-- The header encoding inverted: an encodable header reads back as the fields
its layout carries, and an accepted encoding is the encoding of what was read
exactly when it does not put the HF bit over null parameters. -/
theorem Unserialize_Serialize :
    (∀ (ctx : HeaderContext) (header : CBlockHeader), header.Encodable → ∀ rest,
      unserialize ctx (header.serialize ctx ++ rest) = .ok (header.carried ctx, rest)) ∧
    (∀ (ctx : HeaderContext) (input rest : Bytes) (header : CBlockHeader),
      unserialize ctx input = .ok (header, rest) →
        (header.serialize ctx ++ rest = input ↔
          ¬(dynaFedOnWire input = true ∧ header.m_dynafed_params.IsNull = true))) :=
  ⟨unserialize_roundTrip, fun ctx _ _ _ read => serialize_eq_iff ctx read⟩

/-- A signed-blocks header with a full current entry reads back. -/
theorem Unserialize_Serialize_full_entry :
    let ctx : HeaderContext := ⟨false, true, false, true⟩
    let entry : DynaFedParamEntry :=
      ⟨2, [0x51], 0, [0x00, 0x14], [0x51], [], Uint256.zero⟩
    let header : CBlockHeader :=
      { null with nVersion := 4, m_dynafed_params := ⟨entry, DynaFedParamEntry.null⟩ }
    unserialize ctx (header.serialize ctx ++ []) = .ok (header.carried ctx, []) := by
  intro ctx entry header
  have current : entry.Encodable :=
    ⟨.inr (.inr ⟨rfl, rfl⟩), by decide, by decide, by decide,
      ⟨by decide, fun _ mem => absurd mem List.not_mem_nil⟩⟩
  have encodable : header.Encodable :=
    ⟨by decide, fun _ => ⟨current, DynaFedParamEntry.null_encodable⟩,
      ⟨by decide, fun _ mem => absurd mem List.not_mem_nil⟩, by decide, by decide⟩
  exact Unserialize_Serialize.1 ctx header encodable []

end CBlockHeader

end Elements
