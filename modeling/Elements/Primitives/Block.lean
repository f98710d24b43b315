import Elements.Primitives.Transaction
import Elements.Crypto.Hash

/-! `primitives/block.h` and `primitives/block.cpp`: the signed-block proof,
the dynamic federation parameters with their merkle roots, and the block
header with its two wire layouts. The layout is chosen in memory by whether
the dynamic federation parameters are null, and on the wire by the sign bit
of the version (the "HF bit"). -/

namespace Elements

open Wire Wire.Decoder

/-- The settings the header encoding reads: the globals
`g_con_blockheightinheader` and `g_signed_blocks`, and from the stream
whether it hashes (`SER_GETHASH`) and whether it carries witnesses
(`SERIALIZE_TRANSACTION_NO_WITNESS` unset). -/
structure HeaderContext where
  g_con_blockheightinheader : Bool
  g_signed_blocks : Bool
  getHash : Bool
  fAllowWitness : Bool
  deriving DecidableEq

structure CProof where
  challenge : CScript
  solution : CScript
  deriving DecidableEq

namespace CProof

def null : CProof := ⟨[], []⟩

def IsNull (proof : CProof) : Bool := proof.challenge.isEmpty

def serialize (getHash : Bool) (proof : CProof) : Bytes :=
  serializeBytes proof.challenge ++ if !getHash then serializeBytes proof.solution else []

def unserialize (getHash : Bool) : Decoder CProof := do
  let challenge ← unserializeBytes
  if !getHash then do
    let solution ← unserializeBytes
    pure ⟨challenge, solution⟩
  else pure ⟨challenge, []⟩

end CProof

/-- One set of consensus parameters. `m_serialize_type` is 0 for a null
entry, 1 for a pruned one whose non-signing fields are committed to by
`m_elided_root`, and 2 for a full one. -/
structure DynaFedParamEntry where
  m_serialize_type : UInt8
  m_signblockscript : CScript
  m_signblock_witness_limit : UInt32
  m_fedpeg_program : CScript
  m_fedpegscript : CScript
  m_extension_space : List Bytes
  m_elided_root : Uint256
  deriving DecidableEq

namespace DynaFedParamEntry

def null : DynaFedParamEntry := ⟨0, [], 0, [], [], [], Uint256.zero⟩

instance : Inhabited DynaFedParamEntry := ⟨null⟩

def mkPruned (signblockscript_in : CScript) (sbs_wit_limit_in : UInt32) (elided_root_in : Uint256) :
    DynaFedParamEntry :=
  { null with
    m_serialize_type := 1, m_signblockscript := signblockscript_in,
    m_signblock_witness_limit := sbs_wit_limit_in, m_elided_root := elided_root_in }

def mkFull (signblockscript_in : CScript) (sbs_wit_limit_in : UInt32) (fedpeg_program_in : CScript)
    (fedpegscript_in : CScript) (extension_space_in : List Bytes) : DynaFedParamEntry :=
  { null with
    m_serialize_type := 2, m_signblockscript := signblockscript_in,
    m_signblock_witness_limit := sbs_wit_limit_in, m_fedpeg_program := fedpeg_program_in,
    m_fedpegscript := fedpegscript_in, m_extension_space := extension_space_in }

def IsNull (entry : DynaFedParamEntry) : Bool :=
  entry.m_serialize_type == 0 && entry.m_signblockscript.isEmpty &&
    entry.m_signblock_witness_limit == 0 && entry.m_fedpeg_program.isEmpty &&
    entry.m_fedpegscript.isEmpty && entry.m_extension_space.isEmpty

/-- `operator==`, which compares every field but the elided root. -/
def operatorEq (entry other : DynaFedParamEntry) : Bool :=
  entry.m_serialize_type == other.m_serialize_type &&
    entry.m_signblockscript == other.m_signblockscript &&
    entry.m_signblock_witness_limit == other.m_signblock_witness_limit &&
    entry.m_fedpeg_program == other.m_fedpeg_program &&
    entry.m_fedpegscript == other.m_fedpegscript &&
    entry.m_extension_space == other.m_extension_space

/-- The fields written after the type byte. The source asserts on a type
above 2; the model writes nothing more there. -/
def serializeFields (entry : DynaFedParamEntry) : Bytes :=
  if entry.m_serialize_type = 0 then []
  else if entry.m_serialize_type = 1 then
    serializeBytes entry.m_signblockscript ++ serWritedata32 entry.m_signblock_witness_limit ++
      entry.m_elided_root.serialize
  else if entry.m_serialize_type = 2 then
    serializeBytes entry.m_signblockscript ++ serWritedata32 entry.m_signblock_witness_limit ++
      serializeBytes entry.m_fedpeg_program ++ serializeBytes entry.m_fedpegscript ++
      serializeVector serializeBytes entry.m_extension_space
  else []

def serialize (entry : DynaFedParamEntry) : Bytes :=
  serWritedata8 entry.m_serialize_type ++ entry.serializeFields

def invalidEntryType : String := "Invalid consensus parameter entry type"

def unserialize : Decoder DynaFedParamEntry := do
  let m_serialize_type ← serReaddata8
  if m_serialize_type = 0 then pure null
  else if m_serialize_type = 1 then do
    let m_signblockscript ← unserializeBytes
    let m_signblock_witness_limit ← serReaddata32
    let m_elided_root ← Uint256.unserialize
    pure { null with
      m_serialize_type := m_serialize_type, m_signblockscript := m_signblockscript,
      m_signblock_witness_limit := m_signblock_witness_limit, m_elided_root := m_elided_root }
  else if m_serialize_type = 2 then do
    let m_signblockscript ← unserializeBytes
    let m_signblock_witness_limit ← serReaddata32
    let m_fedpeg_program ← unserializeBytes
    let m_fedpegscript ← unserializeBytes
    let m_extension_space ← unserializeVector unserializeBytes
    pure { null with
      m_serialize_type := m_serialize_type, m_signblockscript := m_signblockscript,
      m_signblock_witness_limit := m_signblock_witness_limit, m_fedpeg_program := m_fedpeg_program,
      m_fedpegscript := m_fedpegscript, m_extension_space := m_extension_space }
  else fail invalidEntryType

variable (H : Hashes)

def CalculateExtraRoot (entry : DynaFedParamEntry) : Uint256 :=
  H.ComputeFastMerkleRoot [H.SerializeHash (serializeBytes entry.m_fedpeg_program),
    H.SerializeHash (serializeBytes entry.m_fedpegscript),
    H.SerializeHash (serializeVector serializeBytes entry.m_extension_space)]

def CalculateRoot (entry : DynaFedParamEntry) : Uint256 :=
  if entry.m_serialize_type = 0 then Uint256.zero
  else
    let compact_root := H.ComputeFastMerkleRoot
      [H.SerializeHash (serializeBytes entry.m_signblockscript),
        H.SerializeHash (serWritedata32 entry.m_signblock_witness_limit)]
    let extra_root :=
      if entry.m_serialize_type = 1 then entry.m_elided_root
      else if entry.m_serialize_type = 2 then entry.CalculateExtraRoot H
      else Uint256.zero
    H.ComputeFastMerkleRoot [compact_root, extra_root]

end DynaFedParamEntry

structure DynaFedParams where
  m_current : DynaFedParamEntry
  m_proposed : DynaFedParamEntry
  deriving DecidableEq

namespace DynaFedParams

def null : DynaFedParams := ⟨DynaFedParamEntry.null, DynaFedParamEntry.null⟩

def IsNull (params : DynaFedParams) : Bool := params.m_current.IsNull && params.m_proposed.IsNull

def serialize (params : DynaFedParams) : Bytes :=
  params.m_current.serialize ++ params.m_proposed.serialize

def unserialize : Decoder DynaFedParams := do
  let m_current ← DynaFedParamEntry.unserialize
  let m_proposed ← DynaFedParamEntry.unserialize
  pure ⟨m_current, m_proposed⟩

def CalculateRoot (H : Hashes) (params : DynaFedParams) : Uint256 :=
  if params.IsNull then Uint256.zero
  else H.ComputeFastMerkleRoot [params.m_current.CalculateRoot H, params.m_proposed.CalculateRoot H]

end DynaFedParams

structure CBlockHeader where
  nVersion : Int32
  hashPrevBlock : Uint256
  hashMerkleRoot : Uint256
  nTime : UInt32
  block_height : UInt32
  nBits : UInt32
  nNonce : UInt32
  proof : CProof
  m_dynafed_params : DynaFedParams
  m_signblock_witness : CScriptWitness
  deriving DecidableEq

namespace CBlockHeader

def null : CBlockHeader :=
  ⟨0, Uint256.zero, Uint256.zero, 0, 0, 0, 0, CProof.null, DynaFedParams.null, ⟨[]⟩⟩

def DYNAFED_HF_MASK : UInt32 := 0x80000000

def serializeDynaFed (ctx : HeaderContext) (header : CBlockHeader) : Bytes :=
  header.hashPrevBlock.serialize ++ header.hashMerkleRoot.serialize ++ serWritedata32 header.nTime ++
    serWritedata32 header.block_height ++ header.m_dynafed_params.serialize ++
    -- the signing witness is left out of hashes and weight
    if !ctx.getHash && ctx.fAllowWitness then
      serializeVector serializeBytes header.m_signblock_witness.stack
    else []

def serializeLegacy (ctx : HeaderContext) (header : CBlockHeader) : Bytes :=
  header.hashPrevBlock.serialize ++ header.hashMerkleRoot.serialize ++ serWritedata32 header.nTime ++
    (if ctx.g_con_blockheightinheader then serWritedata32 header.block_height else []) ++
    if ctx.g_signed_blocks then header.proof.serialize ctx.getHash
    else serWritedata32 header.nBits ++ serWritedata32 header.nNonce

def serialize (ctx : HeaderContext) (header : CBlockHeader) : Bytes :=
  let is_dyna := !header.m_dynafed_params.IsNull
  let nVersion :=
    if is_dyna then header.nVersion.toUInt32 ||| DYNAFED_HF_MASK else header.nVersion.toUInt32
  serWritedata32 nVersion ++
    if is_dyna then header.serializeDynaFed ctx else header.serializeLegacy ctx

def unserializeDynaFed (ctx : HeaderContext) (nVersion : Int32) : Decoder CBlockHeader := do
  let hashPrevBlock ← Uint256.unserialize
  let hashMerkleRoot ← Uint256.unserialize
  let nTime ← serReaddata32
  let block_height ← serReaddata32
  let m_dynafed_params ← DynaFedParams.unserialize
  let stack ← if !ctx.getHash && ctx.fAllowWitness then unserializeVector unserializeBytes
    else pure []
  pure { null with
    nVersion := nVersion, hashPrevBlock := hashPrevBlock, hashMerkleRoot := hashMerkleRoot,
    nTime := nTime, block_height := block_height, m_dynafed_params := m_dynafed_params,
    m_signblock_witness := ⟨stack⟩ }

def unserializeLegacy (ctx : HeaderContext) (nVersion : Int32) : Decoder CBlockHeader := do
  let hashPrevBlock ← Uint256.unserialize
  let hashMerkleRoot ← Uint256.unserialize
  let nTime ← serReaddata32
  let block_height ← (if ctx.g_con_blockheightinheader then serReaddata32 else pure 0)
  if ctx.g_signed_blocks then do
    let proof ← CProof.unserialize ctx.getHash
    pure { null with
      nVersion := nVersion, hashPrevBlock := hashPrevBlock, hashMerkleRoot := hashMerkleRoot,
      nTime := nTime, block_height := block_height, proof := proof }
  else do
    let nBits ← serReaddata32
    let nNonce ← serReaddata32
    pure { null with
      nVersion := nVersion, hashPrevBlock := hashPrevBlock, hashMerkleRoot := hashMerkleRoot,
      nTime := nTime, block_height := block_height, nBits := nBits, nNonce := nNonce }

def unserialize (ctx : HeaderContext) : Decoder CBlockHeader := do
  let version ← serReaddata32
  let is_dyna := version.toInt32 < 0
  let nVersion := (~~~DYNAFED_HF_MASK &&& version).toInt32
  if is_dyna then unserializeDynaFed ctx nVersion else unserializeLegacy ctx nVersion

end CBlockHeader

end Elements
