import Elements.Primitives.Block
import Elements.Script.Script
import Elements.Machine.CInt

/-! Dynamic federations: the parameters a block must publish, derived from
the chain below it (`dynafed.cpp`); the header rule that checks them
(`ContextualCheckDynaFedHeader` in `validation.cpp`); and the fedpeg scripts
a peg-in is checked against (`GetValidFedpegScripts` in `pegins.cpp`). A
block index is modelled with its whole ancestry, the headers from genesis up
to itself, so that `GetAncestor` reads that list at a height. -/

namespace Elements

open Wire

inductive GenesisStyle
  | bitcoin
  | elements
  | dynamic
  deriving DecidableEq

/-- The fields of `Consensus::Params` the dynamic federation code reads.
`dynafedAlwaysActive` stands for
`vDeployments[DEPLOYMENT_DYNA_FED].nStartTime == ALWAYS_ACTIVE`. -/
structure ConsensusParams where
  dynamic_epoch_length : UInt32
  total_valid_epochs : Nat
  genesis_style : GenesisStyle
  dynafedAlwaysActive : Bool
  fedpegScript : CScript
  start_p2wsh_script : Bool
  max_block_signature_size : UInt32
  first_extension_space : List Bytes

/-- What the header rule reads besides the consensus parameters: whether PAK
is enforced, whether the PAK list an extension space makes is a reject list
(`CreatePAKListFromExtensionSpace(...).IsReject()`), and whether the
versionbits deployment of dynamic federations is active after a chain. -/
structure ChainParams where
  consensus : ConsensusParams
  GetEnforcePak : Bool
  pakListIsReject : List Bytes → Bool
  dynafedSignalledAfter : List CBlockHeader → Bool

structure CBlockIndex where
  headers : List CBlockHeader
  nonempty : headers ≠ []

namespace CBlockIndex

def nHeight (index : CBlockIndex) : Nat := index.headers.length - 1

def header (index : CBlockIndex) : CBlockHeader := index.headers.getLast index.nonempty

def dynafed_params (index : CBlockIndex) : DynaFedParams := index.header.m_dynafed_params

/-- The header of the ancestor at `height`; none above this block. -/
def GetAncestor (index : CBlockIndex) (height : Nat) : Option CBlockHeader := index.headers[height]?

end CBlockIndex

/-- `DeploymentActiveAfter(pindexPrev, consensus, DEPLOYMENT_DYNA_FED)`: an
always-active deployment is active from genesis on. -/
def DeploymentActiveAfter (params : ChainParams) (pindexPrev : CBlockIndex) : Bool :=
  params.consensus.dynafedAlwaysActive || params.dynafedSignalledAfter pindexPrev.headers

variable (H : Hashes)

/-- The vote count of `NextBlockIsParameterTransition`: the root of each
proposal is tallied, newest first, until a non-null root reaches the
threshold. -/
def tallyVotes (threshold : Nat) : List Uint256 → List DynaFedParamEntry → Option DynaFedParamEntry
  | _, [] => none
  | vote_tally, proposal :: proposals =>
    let proposal_root := proposal.CalculateRoot H
    let vote_tally := proposal_root :: vote_tally
    if !proposal_root.IsNull && vote_tally.count proposal_root ≥ threshold then some proposal
    else tallyVotes threshold vote_tally proposals

/-- The winning proposal when the next block starts an epoch and four fifths
of the blocks of the epoch before proposed it; none where the source returns
false. Its `assert(dynamic_epoch_length != 0)` is a hypothesis of the theorems
about it. -/
def NextBlockIsParameterTransition (consensus : ConsensusParams) (pindexPrev : CBlockIndex) :
    Option DynaFedParamEntry :=
  let next_height := pindexPrev.nHeight + 1
  let epoch_length := consensus.dynamic_epoch_length.toNat
  if next_height % epoch_length ≠ 0 then none
  else
    -- the proposals at heights `next_height - 1` down to `next_height - epoch_length`
    let proposals := (List.range epoch_length).filterMap fun back =>
      (pindexPrev.GetAncestor (next_height - 1 - back)).map (·.m_dynafed_params.m_proposed)
    tallyVotes H (consensus.dynamic_epoch_length * 4 / 5).toNat [] proposals

/-- The full parameters standing for an epoch that started before dynamic
federations: the signblockscript as P2WSH, and the fedpeg script as P2WSH
under `start_p2wsh_script`, as P2SH-wrapped P2WSH otherwise. -/
def legacyFullParameters (consensus : ConsensusParams) (challenge : CScript) : DynaFedParamEntry :=
  let p2wsh_signblock_script := witnessV0ScriptHashScript H challenge
  let fedpeg_p2sw := witnessV0ScriptHashScript H consensus.fedpegScript
  if consensus.start_p2wsh_script then
    DynaFedParamEntry.mkFull p2wsh_signblock_script consensus.max_block_signature_size fedpeg_p2sw
      consensus.fedpegScript consensus.first_extension_space
  else
    let sh_wsh_fedpeg_program := scriptHashScript H fedpeg_p2sw
    DynaFedParamEntry.mkFull p2wsh_signblock_script consensus.max_block_signature_size
      sh_wsh_fedpeg_program consensus.fedpegScript consensus.first_extension_space

def epochStartParameters (consensus : ConsensusParams) (p_epoch_start : CBlockHeader) :
    DynaFedParamEntry :=
  if p_epoch_start.m_dynafed_params.IsNull then
    legacyFullParameters H consensus p_epoch_start.proof.challenge
  else p_epoch_start.m_dynafed_params.m_current

def ComputeNextBlockFullCurrentParameters (consensus : ConsensusParams) (pindexPrev : CBlockIndex) :
    DynaFedParamEntry :=
  let next_height := pindexPrev.nHeight + 1
  let epoch_length := consensus.dynamic_epoch_length.toNat
  let epoch_age := next_height % epoch_length
  match NextBlockIsParameterTransition H consensus pindexPrev with
  | some winning_proposal => winning_proposal
  | none =>
    -- an epoch start looks back to the start of the epoch before
    let epoch_start_height :=
      if epoch_age = 0 then next_height - epoch_age - epoch_length else next_height - epoch_age
    -- a chain in dynamic federation mode from genesis keeps its parameters in block 1
    let epoch_start_height :=
      if consensus.genesis_style = .elements ∧ epoch_start_height = 0 ∧ next_height > 1 ∧
          consensus.dynafedAlwaysActive then 1
      else epoch_start_height
    match pindexPrev.GetAncestor epoch_start_height with
    | none => DynaFedParamEntry.null
    | some p_epoch_start => epochStartParameters H consensus p_epoch_start

def ComputeNextBlockCurrentParameters (consensus : ConsensusParams) (pindexPrev : CBlockIndex) :
    DynaFedParamEntry :=
  let entry := ComputeNextBlockFullCurrentParameters H consensus pindexPrev
  let next_height := pindexPrev.nHeight + 1
  let epoch_age := next_height % consensus.dynamic_epoch_length.toNat
  if epoch_age = 0 ∨ pindexPrev.dynafed_params.IsNull then entry
  else DynaFedParamEntry.mkPruned entry.m_signblockscript entry.m_signblock_witness_limit
    (entry.CalculateExtraRoot H)

def reserved_mask : UInt32 :=
  (1 <<< (23 : UInt32)) ||| (1 <<< (24 : UInt32)) ||| (1 <<< (25 : UInt32)) ||| (1 <<< (26 : UInt32))

/-- The rules a proposal that changes the fedpeg fields must meet: a witness
program, and for version 0 the program of the proposed script, which must not
start with `OP_DEPTH`. -/
def checkProposedFedpeg (proposed : DynaFedParamEntry) : Except String Unit :=
  match IsWitnessProgram proposed.m_fedpeg_program with
  | none => throw "proposed fedpeg program must be native segwit scriptPubkey"
  | some (fedpeg_version, _) =>
    if fedpeg_version = 0 then do
      let computed_program := witnessV0ScriptHashScript H proposed.m_fedpegscript
      if computed_program ≠ proposed.m_fedpeg_program then
        throw "proposed v0 segwit fedpegscript must match proposed fedpeg witness program"
      if proposed.m_fedpegscript.head? = some OP_DEPTH then
        throw "Proposed fedpegscript starts with OP_DEPTH, which is illegal"
    else pure ()

def checkProposedParameters (params : ChainParams) (current proposed : DynaFedParamEntry) :
    Except String Unit := do
  if proposed.m_signblockscript ≠ current.m_signblockscript then
    if (IsWitnessProgram proposed.m_signblockscript).isNone then
      throw "proposed signblockscript must be native segwit scriptPubkey"
  if proposed.m_fedpeg_program ≠ current.m_fedpeg_program ∨
      proposed.m_fedpegscript ≠ current.m_fedpegscript then
    checkProposedFedpeg H proposed
  if proposed.m_extension_space ≠ current.m_extension_space then
    if params.GetEnforcePak ∧ !proposed.m_extension_space.isEmpty ∧
        params.pakListIsReject proposed.m_extension_space then
      throw "Extension space is not list of valid PAK entries"

/-- The header rule of dynamic federations; the error is the debug message of
the `invalid-dyna-fed` rejection. -/
def ContextualCheckDynaFedHeader (params : ChainParams) (block : CBlockHeader)
    (pindexPrev : CBlockIndex) : Except String Unit :=
  if !DeploymentActiveAfter params pindexPrev then pure ()
  else do
    let dynafed_params := block.m_dynafed_params
    if dynafed_params.m_current.IsNull then
      throw "dynamic block headers must have non-empty current signblockscript field"
    if block.nVersion.toUInt32 &&& reserved_mask ≠ 0 then
      throw "dynamic block header has unknown HF extension bits set"
    let expected_current_params := ComputeNextBlockCurrentParameters H params.consensus pindexPrev
    if !expected_current_params.operatorEq dynafed_params.m_current then
      throw "dynamic block header's current parameters do not match expected"
    if !dynafed_params.m_proposed.IsNull then
      let current := ComputeNextBlockFullCurrentParameters H params.consensus pindexPrev
      checkProposedParameters H params current dynafed_params.m_proposed

def epochFedpegScripts (consensus : ConsensusParams) (p_epoch_start : CBlockHeader) :
    CScript × CScript :=
  if !p_epoch_start.m_dynafed_params.IsNull then
    (p_epoch_start.m_dynafed_params.m_current.m_fedpeg_program,
      p_epoch_start.m_dynafed_params.m_current.m_fedpegscript)
  else
    (scriptHashScript H (witnessV0ScriptHashScript H consensus.fedpegScript), consensus.fedpegScript)

/-- The walk back over epoch starts, iteration `i` on with `fuel` iterations
left, stopping before genesis. Its products and differences are `int32_t`:
`none` where one overflows. -/
def collectEpochStarts (consensus : ConsensusParams) (pblockindex : CBlockIndex)
    (epoch_length epoch_start_height : Int) : Nat → Int → Option (List (CScript × CScript))
  | 0, _ => some []
  | fuel + 1, i => do
    let offset ← CInt.mul 32 i epoch_length
    if offset > epoch_start_height then pure []
    else
      let height ← CInt.sub 32 epoch_start_height offset
      -- `GetAncestor` of a negative height is null
      match if height < 0 then none else pblockindex.GetAncestor height.toNat with
      | none => pure []
      | some p_epoch_start => do
        let rest ← collectEpochStarts consensus pblockindex epoch_length epoch_start_height fuel (i + 1)
        pure (epochFedpegScripts H consensus p_epoch_start :: rest)

/-- The fedpeg scripts peg-ins are checked against, newest epoch first. Under
`nextblock_validation` (the mempool) the last block of an epoch looks ahead
to the parameters the next block will enforce. The epoch arithmetic is that of
`int32_t`, into which `dynamic_epoch_length` and `total_valid_epochs` are
cast; `none` where it is undefined. -/
def GetValidFedpegScripts (consensus : ConsensusParams) (pblockindex : CBlockIndex)
    (nextblock_validation : Bool) : Option (List (CScript × CScript)) := do
  let epoch_length := CInt.ofUnsigned 32 consensus.dynamic_epoch_length.toNat
  let epoch_age ← CInt.rem 32 pblockindex.nHeight epoch_length
  let epoch_start_height ← CInt.sub 32 pblockindex.nHeight epoch_age
  -- `epoch_age == epoch_length - 1` is evaluated only under `nextblock_validation`
  let lookahead ← if nextblock_validation then do
      let last ← CInt.sub 32 epoch_length 1
      if epoch_age = last then
        let next_param := ComputeNextBlockFullCurrentParameters H consensus pblockindex
        pure [(next_param.m_fedpeg_program, next_param.m_fedpegscript)]
      else pure []
    else pure []
  let epochs := CInt.ofUnsigned 32 (consensus.total_valid_epochs % 2 ^ 32)
  let starts ← collectEpochStarts H consensus pblockindex epoch_length epoch_start_height epochs.toNat 0
  let fedpegscripts := lookahead ++ starts
  pure (fedpegscripts.take (min fedpegscripts.length consensus.total_valid_epochs))

end Elements
