import Mathlib.Data.List.GetD
import Elements.Dynafed
import Elements.Control.Guard

/-! Dynamic federation parameters along a chain. Every block of an epoch
takes its full parameters from one reference block: the epoch start, or
block 1 in the first epoch of a chain in dynamic federation mode from
genesis. The header rule makes the reference block publish them, so the full
parameters agree over an epoch up to `operator==`, and the fedpeg scripts
the mempool looks ahead to are those the next block enforces. `operator==`
leaves out the elided root of a pruned entry, and so does the header rule. -/

namespace Elements

open Wire

namespace DynaFedParamEntry

theorem operatorEq_iff {entry other : DynaFedParamEntry} :
    entry.operatorEq other = true ↔
      entry.m_serialize_type = other.m_serialize_type ∧
      entry.m_signblockscript = other.m_signblockscript ∧
      entry.m_signblock_witness_limit = other.m_signblock_witness_limit ∧
      entry.m_fedpeg_program = other.m_fedpeg_program ∧
      entry.m_fedpegscript = other.m_fedpegscript ∧
      entry.m_extension_space = other.m_extension_space := by
  simp [operatorEq, Bool.and_eq_true, beq_iff_eq, and_assoc]

@[simp] theorem operatorEq_self (entry : DynaFedParamEntry) : entry.operatorEq entry = true :=
  operatorEq_iff.mpr ⟨rfl, rfl, rfl, rfl, rfl, rfl⟩

theorem operatorEq_symm {entry other : DynaFedParamEntry} (same : entry.operatorEq other = true) :
    other.operatorEq entry = true := by
  rcases operatorEq_iff.mp same with ⟨h₁, h₂, h₃, h₄, h₅, h₆⟩
  exact operatorEq_iff.mpr ⟨h₁.symm, h₂.symm, h₃.symm, h₄.symm, h₅.symm, h₆.symm⟩

theorem operatorEq_trans {entry middle other : DynaFedParamEntry}
    (left : entry.operatorEq middle = true) (right : middle.operatorEq other = true) :
    entry.operatorEq other = true := by
  rcases operatorEq_iff.mp left with ⟨h₁, h₂, h₃, h₄, h₅, h₆⟩
  rcases operatorEq_iff.mp right with ⟨k₁, k₂, k₃, k₄, k₅, k₆⟩
  exact operatorEq_iff.mpr ⟨h₁.trans k₁, h₂.trans k₂, h₃.trans k₃, h₄.trans k₄, h₅.trans k₅,
    h₆.trans k₆⟩

theorem fedpeg_eq_of_operatorEq {entry other : DynaFedParamEntry}
    (same : entry.operatorEq other = true) :
    (entry.m_fedpeg_program, entry.m_fedpegscript) = (other.m_fedpeg_program, other.m_fedpegscript) := by
  rcases operatorEq_iff.mp same with ⟨-, -, -, program, script, -⟩
  rw [program, script]

@[simp] theorem operatorEq_setRoot (entry other : DynaFedParamEntry) (root : Uint256) :
    entry.operatorEq { other with m_elided_root := root } = entry.operatorEq other := rfl

@[simp] theorem mkPruned_operatorEq (signblockscript : CScript) (limit : UInt32) (root other : Uint256) :
    (mkPruned signblockscript limit root).operatorEq (mkPruned signblockscript limit other) = true :=
  operatorEq_setRoot (mkPruned signblockscript limit root) (mkPruned signblockscript limit root) other ▸
    operatorEq_self _

end DynaFedParamEntry

namespace CBlockIndex

/-- The index of the block at height `n` of a chain given from genesis. -/
def upTo (chain : List CBlockHeader) (n : Nat) (below : n < chain.length) : CBlockIndex :=
  ⟨chain.take (n + 1), by
    intro empty
    have length := congrArg List.length empty
    simp only [List.length_take, List.length_nil] at length
    omega⟩

variable {chain : List CBlockHeader} {n : Nat}

@[simp] theorem nHeight_upTo (below : n < chain.length) : (upTo chain n below).nHeight = n := by
  simp only [upTo, nHeight, List.length_take]
  omega

theorem GetAncestor_upTo (below : n < chain.length) {height : Nat} (le : height ≤ n) :
    (upTo chain n below).GetAncestor height = some chain[height] := by
  simp only [upTo, GetAncestor]
  rw [List.getElem?_take_of_lt (by omega), List.getElem?_eq_getElem (by omega)]

@[simp] theorem header_upTo (below : n < chain.length) : (upTo chain n below).header = chain[n] := by
  simp only [upTo, header]
  rw [List.getLast_eq_getElem]
  simp only [List.getElem_take, List.length_take]
  congr 1
  omega

end CBlockIndex

open CBlockIndex

variable (H : Hashes) (params : ChainParams)

def Accepted (chain : List CBlockHeader) : Prop :=
  ∀ m (below : m + 1 < chain.length),
    ContextualCheckDynaFedHeader H params chain[m + 1] (upTo chain m (by omega)) = .ok ()

theorem ContextualCheckDynaFedHeader_current {block : CBlockHeader} {pindexPrev : CBlockIndex}
    (accepted : ContextualCheckDynaFedHeader H params block pindexPrev = .ok ())
    (active : DeploymentActiveAfter params pindexPrev = true) :
    block.m_dynafed_params.m_current.IsNull = false ∧
      (ComputeNextBlockCurrentParameters H params.consensus pindexPrev).operatorEq
        block.m_dynafed_params.m_current = true := by
  simp only [ContextualCheckDynaFedHeader, active, Bool.not_true, Bool.false_eq_true, if_false,
    Guard.throw_bind, Guard.ite_throw_eq_ok] at accepted
  rcases accepted with ⟨notNull, -, expected, -⟩
  exact ⟨by simpa using notNull, by simpa using expected⟩

theorem ContextualCheckDynaFedHeader_eq_ok_iff {block : CBlockHeader} {pindexPrev : CBlockIndex}
    (active : DeploymentActiveAfter params pindexPrev = true)
    (noProposal : block.m_dynafed_params.m_proposed.IsNull = true) :
    ContextualCheckDynaFedHeader H params block pindexPrev = .ok () ↔
      block.m_dynafed_params.m_current.IsNull = false ∧
        block.nVersion.toUInt32 &&& reserved_mask = 0 ∧
        (ComputeNextBlockCurrentParameters H params.consensus pindexPrev).operatorEq
          block.m_dynafed_params.m_current = true := by
  simp only [ContextualCheckDynaFedHeader, active, noProposal, Bool.not_true, Bool.false_eq_true,
    if_false, Guard.throw_bind, Guard.ite_throw_eq_ok, Guard.pure_eq_ok]
  simp

section Derivation

variable (consensus : ConsensusParams) {chain : List CBlockHeader}

/-- The epoch start `ComputeNextBlockFullCurrentParameters` reads for a next
block at height `n` that does not start an epoch: block 1 in the first epoch
of a chain in dynamic federation mode from genesis, the epoch start otherwise. -/
def midEpochStart (n : Nat) : Nat :=
  let epoch_start_height := n - n % consensus.dynamic_epoch_length.toNat
  if consensus.genesis_style = .elements ∧ epoch_start_height = 0 ∧ n > 1 ∧
      consensus.dynafedAlwaysActive then 1
  else epoch_start_height

/-- The block the blocks of the epoch of height `n` take their parameters from. -/
def epochReference (n : Nat) : Nat :=
  if consensus.genesis_style = .elements ∧ consensus.dynafedAlwaysActive ∧
      n / consensus.dynamic_epoch_length.toNat = 0 then 1
  else n / consensus.dynamic_epoch_length.toNat * consensus.dynamic_epoch_length.toNat

theorem midEpochStart_le {m : Nat} (age : (m + 1) % consensus.dynamic_epoch_length.toNat ≠ 0) :
    midEpochStart consensus (m + 1) ≤ m := by
  simp only [midEpochStart]
  split_ifs <;> omega

theorem midEpochStart_eq_epochReference {m : Nat}
    (notFirst : ¬(consensus.genesis_style = .elements ∧ consensus.dynafedAlwaysActive ∧ m = 0)) :
    midEpochStart consensus (m + 1) = epochReference consensus (m + 1) := by
  have split := Nat.div_add_mod (m + 1) consensus.dynamic_epoch_length.toNat
  have start : m + 1 - (m + 1) % consensus.dynamic_epoch_length.toNat =
      (m + 1) / consensus.dynamic_epoch_length.toNat * consensus.dynamic_epoch_length.toNat := by
    rw [Nat.mul_comm]
    omega
  -- the epoch start is 0 exactly in the first epoch
  have first : (m + 1) / consensus.dynamic_epoch_length.toNat * consensus.dynamic_epoch_length.toNat = 0 ↔
      (m + 1) / consensus.dynamic_epoch_length.toNat = 0 := by
    constructor
    · intro zero
      rcases Nat.mul_eq_zero.mp zero with quotient | length
      · exact quotient
      · simp [length]
    · intro zero
      rw [zero, Nat.zero_mul]
  unfold midEpochStart epochReference
  simp only [start, first]
  by_cases special : consensus.genesis_style = .elements ∧ consensus.dynafedAlwaysActive = true ∧
      (m + 1) / consensus.dynamic_epoch_length.toNat = 0
  · rcases special with ⟨elements, always, zero⟩
    have above : m + 1 > 1 := by
      by_contra atMostOne
      exact notFirst ⟨elements, always, by omega⟩
    simp [elements, always, zero, above]
  · rw [if_neg special, if_neg]
    rintro ⟨elements, zero, -, always⟩
    exact special ⟨elements, always, zero⟩

theorem NextBlockIsParameterTransition_of_mod_ne {pindexPrev : CBlockIndex}
    (age : (pindexPrev.nHeight + 1) % consensus.dynamic_epoch_length.toNat ≠ 0) :
    NextBlockIsParameterTransition H consensus pindexPrev = none := by
  simp [NextBlockIsParameterTransition, age]

theorem ComputeNextBlockFullCurrentParameters_of_mod_ne {m : Nat} (below : m < chain.length)
    (age : (m + 1) % consensus.dynamic_epoch_length.toNat ≠ 0) :
    ComputeNextBlockFullCurrentParameters H consensus (upTo chain m below) =
      epochStartParameters H consensus
        (chain.getD (midEpochStart consensus (m + 1)) CBlockHeader.null) := by
  have next : (upTo chain m below).nHeight + 1 = m + 1 := by rw [nHeight_upTo]
  have transition := NextBlockIsParameterTransition_of_mod_ne H consensus (by rw [next]; exact age)
  have ancestor := GetAncestor_upTo below (midEpochStart_le consensus age)
  simp only [midEpochStart] at ancestor
  simp only [ComputeNextBlockFullCurrentParameters, next, transition, age, if_false, midEpochStart]
  rw [ancestor, List.getD_eq_getElem]

theorem ComputeNextBlockCurrentParameters_of_mod_eq {pindexPrev : CBlockIndex}
    (age : (pindexPrev.nHeight + 1) % consensus.dynamic_epoch_length.toNat = 0) :
    ComputeNextBlockCurrentParameters H consensus pindexPrev =
      ComputeNextBlockFullCurrentParameters H consensus pindexPrev := by
  simp [ComputeNextBlockCurrentParameters, age]

theorem ComputeNextBlockCurrentParameters_of_IsNull {pindexPrev : CBlockIndex}
    (null : pindexPrev.dynafed_params.IsNull = true) :
    ComputeNextBlockCurrentParameters H consensus pindexPrev =
      ComputeNextBlockFullCurrentParameters H consensus pindexPrev := by
  simp [ComputeNextBlockCurrentParameters, null]

theorem ComputeNextBlockCurrentParameters_of_mod_ne {pindexPrev : CBlockIndex}
    (age : (pindexPrev.nHeight + 1) % consensus.dynamic_epoch_length.toNat ≠ 0)
    (notNull : pindexPrev.dynafed_params.IsNull = false) :
    ComputeNextBlockCurrentParameters H consensus pindexPrev =
      let full := ComputeNextBlockFullCurrentParameters H consensus pindexPrev
      DynaFedParamEntry.mkPruned full.m_signblockscript full.m_signblock_witness_limit
        (full.CalculateExtraRoot H) := by
  simp [ComputeNextBlockCurrentParameters, age, notNull]

theorem epochStartParameters_of_current {p_epoch_start : CBlockHeader}
    (notNull : p_epoch_start.m_dynafed_params.m_current.IsNull = false) :
    epochStartParameters H consensus p_epoch_start = p_epoch_start.m_dynafed_params.m_current := by
  simp [epochStartParameters, DynaFedParams.IsNull, notNull]

end Derivation

section FirstBlock

theorem legacyFullParameters_m_serialize_type (consensus : ConsensusParams) (challenge : CScript) :
    (legacyFullParameters H consensus challenge).m_serialize_type = 2 := by
  simp only [legacyFullParameters]
  split_ifs <;> rfl

theorem legacyFullParameters_IsNull (consensus : ConsensusParams) (challenge : CScript) :
    (legacyFullParameters H consensus challenge).IsNull = false := by
  simp [DynaFedParamEntry.IsNull, legacyFullParameters_m_serialize_type]

def legacyStartBlock (consensus : ConsensusParams) : CBlockHeader :=
  { CBlockHeader.null with
    m_dynafed_params := ⟨legacyFullParameters H consensus CProof.null.challenge, DynaFedParamEntry.null⟩ }

def legacyStartChain (consensus : ConsensusParams) : List CBlockHeader :=
  [CBlockHeader.null, legacyStartBlock H consensus]

theorem ContextualCheckDynaFedHeader_legacyStartBlock {chain : List CBlockHeader} (below : 1 < chain.length)
    (genesis : chain[0] = CBlockHeader.null) (first : chain[1] = legacyStartBlock H params.consensus)
    (wide : 2 ≤ params.consensus.dynamic_epoch_length.toNat)
    (always : params.consensus.dynafedAlwaysActive = true) :
    ContextualCheckDynaFedHeader H params chain[1] (upTo chain 0 (by omega)) = .ok () := by
  have active : DeploymentActiveAfter params (upTo chain 0 (by omega)) = true := by
    simp [DeploymentActiveAfter, always]
  have genesisNull : (upTo chain 0 (by omega)).dynafed_params.IsNull = true := by
    rw [CBlockIndex.dynafed_params, header_upTo, genesis]
    rfl
  have age : (0 + 1) % params.consensus.dynamic_epoch_length.toNat ≠ 0 := by
    rw [Nat.zero_add, Nat.mod_eq_of_lt (by omega)]
    exact Nat.one_ne_zero
  -- the derivation for block 1 reads genesis, which stands for the legacy parameters
  have start : midEpochStart params.consensus (0 + 1) = 0 := Nat.le_zero.mp (midEpochStart_le _ age)
  rw [ContextualCheckDynaFedHeader_eq_ok_iff H params active (by rw [first]; rfl),
    ComputeNextBlockCurrentParameters_of_IsNull H _ genesisNull,
    ComputeNextBlockFullCurrentParameters_of_mod_ne H _ (by omega) age, start,
    List.getD_eq_getElem _ _ (by omega), genesis, first]
  exact ⟨legacyFullParameters_IsNull H _ _,
    (by decide : CBlockHeader.null.nVersion.toUInt32 &&& reserved_mask = 0),
    DynaFedParamEntry.operatorEq_self _⟩

theorem legacyStartChain_accepted (wide : 2 ≤ params.consensus.dynamic_epoch_length.toNat)
    (always : params.consensus.dynafedAlwaysActive = true) :
    Accepted H params (legacyStartChain H params.consensus) := by
  intro m below
  have zero : m = 0 := by
    simp only [legacyStartChain, List.length_cons, List.length_nil] at below
    omega
  subst zero
  exact ContextualCheckDynaFedHeader_legacyStartBlock H params below rfl rfl wide always

end FirstBlock

section ElidedRoot

/-- The chain of `legacyStartChain` with a block 2 that publishes the same
parameters pruned, with `root` as its elided root. -/
def prunedAfterFullChain (consensus : ConsensusParams) (root : Uint256) : List CBlockHeader :=
  let full := legacyFullParameters H consensus CProof.null.challenge
  legacyStartChain H consensus ++
    [{ CBlockHeader.null with
      m_dynafed_params :=
        ⟨DynaFedParamEntry.mkPruned full.m_signblockscript full.m_signblock_witness_limit root,
          DynaFedParamEntry.null⟩ }]

theorem prunedAfterFullChain_accepted (long : 3 ≤ params.consensus.dynamic_epoch_length.toNat)
    (always : params.consensus.dynafedAlwaysActive = true) (root : Uint256) :
    Accepted H params (prunedAfterFullChain H params.consensus root) := by
  intro m below
  have short : m = 0 ∨ m = 1 := by
    simp only [prunedAfterFullChain, legacyStartChain, List.cons_append, List.nil_append,
      List.length_cons, List.length_nil] at below
    omega
  rcases short with rfl | rfl
  · exact ContextualCheckDynaFedHeader_legacyStartBlock H params below rfl rfl (by omega) always
  · -- block 2 publishes the parameters pruned, and its elided root is never read
    have full := legacyFullParameters_IsNull H params.consensus CProof.null.challenge
    have active : DeploymentActiveAfter params
        (upTo (prunedAfterFullChain H params.consensus root) 1 (by omega)) = true := by
      simp [DeploymentActiveAfter, always]
    have parent : (upTo (prunedAfterFullChain H params.consensus root) 1 (by omega)).dynafed_params.IsNull =
        false := by
      simp [CBlockIndex.dynafed_params, header_upTo, prunedAfterFullChain, legacyStartChain,
        legacyStartBlock, DynaFedParams.IsNull, full]
    have age : (1 + 1) % params.consensus.dynamic_epoch_length.toNat ≠ 0 := by
      rw [Nat.mod_eq_of_lt (by omega)]
      exact Nat.succ_ne_zero 1
    -- blocks 0 and 1 both stand for the legacy parameters
    have reads : ∀ k ≤ 1, epochStartParameters H params.consensus
        ((prunedAfterFullChain H params.consensus root).getD k CBlockHeader.null) =
          legacyFullParameters H params.consensus CProof.null.challenge := by
      intro k le
      rcases Nat.le_one_iff_eq_zero_or_eq_one.mp le with rfl | rfl
      · rfl
      · exact epochStartParameters_of_current H _ full
    rw [ContextualCheckDynaFedHeader_eq_ok_iff H params active rfl,
      ComputeNextBlockCurrentParameters_of_mod_ne H _ (by rw [nHeight_upTo]; exact age) parent,
      ComputeNextBlockFullCurrentParameters_of_mod_ne H _ (by omega) age,
      reads _ (midEpochStart_le _ age)]
    exact ⟨rfl, (by decide : CBlockHeader.null.nVersion.toUInt32 &&& reserved_mask = 0),
      DynaFedParamEntry.mkPruned_operatorEq _ _ _ _⟩

/-- Two blocks of one epoch pass the header rule while their current entries
commit to different roots: block 2 stores an elided root that is not the
extra root of the parameters, and nothing compares the two. -/
theorem ContextualCheckDynaFedHeader_accepts_any_elided_root
    (long : 3 ≤ params.consensus.dynamic_epoch_length.toNat)
    (always : params.consensus.dynafedAlwaysActive = true)
    (binding : ∀ left right other,
      H.ComputeFastMerkleRoot [left, right] = H.ComputeFastMerkleRoot [left, other] → right = other)
    {root : Uint256}
    (forged : root ≠ (legacyFullParameters H params.consensus CProof.null.challenge).CalculateExtraRoot H) :
    Accepted H params (prunedAfterFullChain H params.consensus root) ∧
      1 / params.consensus.dynamic_epoch_length.toNat = 2 / params.consensus.dynamic_epoch_length.toNat ∧
      ((prunedAfterFullChain H params.consensus root).getD 1 CBlockHeader.null).m_dynafed_params.m_current.CalculateRoot H ≠
        ((prunedAfterFullChain H params.consensus root).getD 2 CBlockHeader.null).m_dynafed_params.m_current.CalculateRoot H := by
  refine ⟨prunedAfterFullChain_accepted H params long always root, ?_, ?_⟩
  · rw [Nat.div_eq_of_lt (by omega), Nat.div_eq_of_lt (by omega)]
  · -- both roots hash the same signing leaf with an extra root
    intro same
    have type := legacyFullParameters_m_serialize_type H params.consensus CProof.null.challenge
    simp only [prunedAfterFullChain, legacyStartChain, legacyStartBlock, List.cons_append,
      List.nil_append, List.getD_cons_succ, List.getD_cons_zero, DynaFedParamEntry.CalculateRoot, type,
      DynaFedParamEntry.mkPruned] at same
    exact forged (binding _ _ _ same).symm

def rightLeafHashes : Hashes where
  sha256 _ := Uint256.zero
  sha256Midstate bytes :=
    if size : (bytes.drop 32).length = 32 then ⟨bytes.drop 32, size⟩ else Uint256.zero
  ripemd160 _ := []

theorem rightLeafHashes_MerkleHash_Sha256Midstate (left right : Uint256) :
    rightLeafHashes.MerkleHash_Sha256Midstate left right = right := by
  have rightHalf : (left.data ++ right.data).drop 32 = right.data := by
    rw [← left.size_data, List.drop_left]
  simp only [Hashes.MerkleHash_Sha256Midstate, rightLeafHashes, rightHalf, right.size_data, dif_pos]

theorem ContextualCheckDynaFedHeader_accepts_any_elided_root_ones :
    let params : ChainParams :=
      ⟨⟨3, 1, .elements, true, [], false, 0, []⟩, false, fun _ => false, fun _ => false⟩
    let root : Uint256 := ⟨List.replicate 32 1, by simp⟩
    Accepted rightLeafHashes params (prunedAfterFullChain rightLeafHashes params.consensus root) ∧
      1 / params.consensus.dynamic_epoch_length.toNat = 2 / params.consensus.dynamic_epoch_length.toNat ∧
      ((prunedAfterFullChain rightLeafHashes params.consensus root).getD 1
          CBlockHeader.null).m_dynafed_params.m_current.CalculateRoot rightLeafHashes ≠
        ((prunedAfterFullChain rightLeafHashes params.consensus root).getD 2
          CBlockHeader.null).m_dynafed_params.m_current.CalculateRoot rightLeafHashes := by
  intro params root
  have binding : ∀ left right other,
      rightLeafHashes.ComputeFastMerkleRoot [left, right] =
        rightLeafHashes.ComputeFastMerkleRoot [left, other] → right = other := by
    intro left right other same
    rwa [Hashes.ComputeFastMerkleRoot_pair, Hashes.ComputeFastMerkleRoot_pair,
      rightLeafHashes_MerkleHash_Sha256Midstate, rightLeafHashes_MerkleHash_Sha256Midstate] at same
  have forged : root ≠ (legacyFullParameters rightLeafHashes params.consensus
      CProof.null.challenge).CalculateExtraRoot rightLeafHashes := by decide
  exact ContextualCheckDynaFedHeader_accepts_any_elided_root rightLeafHashes params (by decide) rfl
    binding forged

end ElidedRoot

section Epoch

variable {chain : List CBlockHeader}

theorem Accepted.current (accepted : Accepted H params chain) {m : Nat} (below : m + 1 < chain.length)
    (active : DeploymentActiveAfter params (upTo chain m (by omega)) = true) :
    chain[m + 1].m_dynafed_params.m_current.IsNull = false ∧
      (ComputeNextBlockCurrentParameters H params.consensus (upTo chain m (by omega))).operatorEq
        chain[m + 1].m_dynafed_params.m_current = true :=
  ContextualCheckDynaFedHeader_current H params (accepted m below) active

theorem Accepted.first (accepted : Accepted H params chain)
    (genesis : ∀ g ∈ chain.head?, g.m_dynafed_params = DynaFedParams.null) (below : 1 < chain.length)
    (epochs : 1 % params.consensus.dynamic_epoch_length.toNat ≠ 0)
    (active : DeploymentActiveAfter params (upTo chain 0 (by omega)) = true) :
    (epochStartParameters H params.consensus chain[0]).operatorEq
      (epochStartParameters H params.consensus chain[1]) = true := by
  rcases accepted.current H params below active with ⟨notNull, published⟩
  have genesisNull : (upTo chain 0 (by omega)).dynafed_params.IsNull = true := by
    have head := genesis chain[0] (by simp [List.head?_eq_getElem?])
    simp [CBlockIndex.dynafed_params, head, DynaFedParams.null, DynaFedParams.IsNull,
      DynaFedParamEntry.IsNull, DynaFedParamEntry.null]
  rw [ComputeNextBlockCurrentParameters_of_IsNull H _ genesisNull,
    ComputeNextBlockFullCurrentParameters_of_mod_ne H _ (by omega) epochs] at published
  have start : midEpochStart params.consensus 1 = 0 := by
    simp only [midEpochStart]
    split_ifs <;> omega
  rw [start, List.getD_eq_getElem _ _ (by omega)] at published
  rw [epochStartParameters_of_current H _ notNull]
  exact published

theorem full_operatorEq_reference (accepted : Accepted H params chain)
    (genesis : ∀ g ∈ chain.head?, g.m_dynafed_params = DynaFedParams.null) {m : Nat}
    (below : m + 1 < chain.length)
    (active : epochReference params.consensus (m + 1) = m + 1 →
      DeploymentActiveAfter params (upTo chain m (by omega)) = true) :
    (ComputeNextBlockFullCurrentParameters H params.consensus (upTo chain m (by omega))).operatorEq
      (epochStartParameters H params.consensus
        (chain.getD (epochReference params.consensus (m + 1)) CBlockHeader.null)) = true := by
  by_cases age : (m + 1) % params.consensus.dynamic_epoch_length.toNat = 0
  · -- an epoch start publishes the parameters it derives
    have reference : epochReference params.consensus (m + 1) = m + 1 := by
      have split := Nat.div_add_mod (m + 1) params.consensus.dynamic_epoch_length.toNat
      have positive : (m + 1) / params.consensus.dynamic_epoch_length.toNat ≠ 0 := by
        intro zero
        rw [zero, Nat.mul_zero, Nat.zero_add, age] at split
        omega
      simp only [epochReference, positive, and_false, if_false]
      rw [Nat.mul_comm]
      omega
    rcases accepted.current H params below (active reference) with ⟨notNull, published⟩
    rw [ComputeNextBlockCurrentParameters_of_mod_eq H _ (by rw [nHeight_upTo]; exact age)] at published
    rw [reference, List.getD_eq_getElem _ _ below, epochStartParameters_of_current H _ notNull]
    exact published
  · by_cases first : params.consensus.genesis_style = .elements ∧
        params.consensus.dynafedAlwaysActive ∧ m = 0
    · -- block 1 of a chain in dynamic federation mode from genesis
      rcases first with ⟨elements, always, rfl⟩
      have one : 1 % params.consensus.dynamic_epoch_length.toNat ≠ 0 := age
      have reference : epochReference params.consensus 1 = 1 := by
        have small : 1 / params.consensus.dynamic_epoch_length.toNat = 0 := by
          rcases Nat.lt_or_ge 1 params.consensus.dynamic_epoch_length.toNat with lt | ge
          · exact Nat.div_eq_of_lt lt
          · rcases Nat.le_one_iff_eq_zero_or_eq_one.mp ge with zero | single
            · simp [zero]
            · simp [single] at age
        simp [epochReference, elements, always, small]
      rw [ComputeNextBlockFullCurrentParameters_of_mod_ne H _ (by omega) age, reference]
      have start : midEpochStart params.consensus 1 = 0 := by
        simp only [midEpochStart]
        split_ifs <;> omega
      rw [start, List.getD_eq_getElem _ _ (by omega), List.getD_eq_getElem _ _ below]
      exact accepted.first H params genesis below age (active reference)
    · -- inside an epoch the parameters are read off the reference block
      rw [ComputeNextBlockFullCurrentParameters_of_mod_ne H _ (by omega) age,
        midEpochStart_eq_epochReference _ first]
      exact DynaFedParamEntry.operatorEq_self _

/-- The full parameters of two dynamic federation blocks of one epoch agree
under `operator==`. -/
theorem ComputeNextBlockFullCurrentParameters_same_epoch (accepted : Accepted H params chain)
    (genesis : ∀ g ∈ chain.head?, g.m_dynafed_params = DynaFedParams.null) {m₁ m₂ : Nat}
    (below₁ : m₁ + 1 < chain.length) (below₂ : m₂ + 1 < chain.length)
    (sameEpoch : (m₁ + 1) / params.consensus.dynamic_epoch_length.toNat =
      (m₂ + 1) / params.consensus.dynamic_epoch_length.toNat)
    (active₁ : DeploymentActiveAfter params (upTo chain m₁ (by omega)) = true)
    (active₂ : DeploymentActiveAfter params (upTo chain m₂ (by omega)) = true) :
    (ComputeNextBlockFullCurrentParameters H params.consensus (upTo chain m₁ (by omega))).operatorEq
      (ComputeNextBlockFullCurrentParameters H params.consensus (upTo chain m₂ (by omega))) = true := by
  have reference : epochReference params.consensus (m₁ + 1) = epochReference params.consensus (m₂ + 1) := by
    simp only [epochReference, sameEpoch]
  have first := full_operatorEq_reference H params accepted genesis below₁ (fun _ => active₁)
  have second := full_operatorEq_reference H params accepted genesis below₂ (fun _ => active₂)
  rw [reference] at first
  exact DynaFedParamEntry.operatorEq_trans first (DynaFedParamEntry.operatorEq_symm second)

theorem ComputeNextBlockFullCurrentParameters_same_epoch_pruned :
    let params : ChainParams :=
      ⟨⟨3, 1, .elements, true, [], false, 0, []⟩, false, fun _ => false, fun _ => false⟩
    let chain := prunedAfterFullChain rightLeafHashes params.consensus Uint256.zero
    (ComputeNextBlockFullCurrentParameters rightLeafHashes params.consensus
        (upTo chain 0 (by decide))).operatorEq
      (ComputeNextBlockFullCurrentParameters rightLeafHashes params.consensus
        (upTo chain 1 (by decide))) = true := by
  intro params chain
  exact ComputeNextBlockFullCurrentParameters_same_epoch rightLeafHashes params
    (prunedAfterFullChain_accepted rightLeafHashes params (by decide) rfl Uint256.zero) (by decide)
    (by decide) (by decide) (by decide) rfl rfl

end Epoch

section Fedpeg

variable (consensus : ConsensusParams) {chain : List CBlockHeader}

/-- The walk of `collectEpochStarts` read in natural numbers. -/
def natEpochStarts (pblockindex : CBlockIndex) (epoch_start_height : Nat) : Nat → Nat → List (CScript × CScript)
  | 0, _ => []
  | fuel + 1, i =>
    let epoch_length := consensus.dynamic_epoch_length.toNat
    if i * epoch_length > epoch_start_height then []
    else
      match pblockindex.GetAncestor (epoch_start_height - i * epoch_length) with
      | none => []
      | some p_epoch_start =>
        epochFedpegScripts H consensus p_epoch_start :: natEpochStarts pblockindex epoch_start_height fuel (i + 1)

/-- `GetValidFedpegScripts` read in natural numbers. -/
def natFedpegScripts (pblockindex : CBlockIndex) (nextblock_validation : Bool) : List (CScript × CScript) :=
  let epoch_length := consensus.dynamic_epoch_length.toNat
  let epoch_age := pblockindex.nHeight % epoch_length
  let epoch_start_height := pblockindex.nHeight - epoch_age
  let lookahead :=
    if nextblock_validation ∧ epoch_age = epoch_length - 1 then
      let next_param := ComputeNextBlockFullCurrentParameters H consensus pblockindex
      [(next_param.m_fedpeg_program, next_param.m_fedpegscript)]
    else []
  let fedpegscripts := lookahead ++
    natEpochStarts H consensus pblockindex epoch_start_height consensus.total_valid_epochs 0
  fedpegscripts.take (min fedpegscripts.length consensus.total_valid_epochs)

theorem epochFedpegScripts_eq (noP2wsh : consensus.start_p2wsh_script = false) (p : CBlockHeader) :
    epochFedpegScripts H consensus p =
      ((epochStartParameters H consensus p).m_fedpeg_program,
        (epochStartParameters H consensus p).m_fedpegscript) := by
  cases null : p.m_dynafed_params.IsNull
  · simp [epochFedpegScripts, epochStartParameters, null]
  · simp [epochFedpegScripts, epochStartParameters, null, legacyFullParameters, noP2wsh,
      DynaFedParamEntry.mkFull]

theorem natEpochStarts_congr {index other : CBlockIndex} {start : Nat}
    (same : ∀ height ≤ start, index.GetAncestor height = other.GetAncestor height) (fuel i : Nat) :
    natEpochStarts H consensus index start fuel i =
      natEpochStarts H consensus other start fuel i := by
  induction fuel generalizing i with
  | zero => rfl
  | succ fuel ih =>
    simp only [natEpochStarts]
    split_ifs with stop
    · rfl
    · rw [same _ (Nat.sub_le _ _), ih]

theorem natEpochStarts_shift (index : CBlockIndex) (start fuel i : Nat) :
    natEpochStarts H consensus index (start + consensus.dynamic_epoch_length.toNat) fuel (i + 1) =
      natEpochStarts H consensus index start fuel i := by
  induction fuel generalizing i with
  | zero => rfl
  | succ fuel ih =>
    have stop : (i + 1) * consensus.dynamic_epoch_length.toNat >
        start + consensus.dynamic_epoch_length.toNat ↔
        i * consensus.dynamic_epoch_length.toNat > start := by
      rw [Nat.succ_mul]
      omega
    have height : start + consensus.dynamic_epoch_length.toNat -
        (i + 1) * consensus.dynamic_epoch_length.toNat = start - i * consensus.dynamic_epoch_length.toNat := by
      rw [Nat.succ_mul]
      omega
    simp only [natEpochStarts, stop, height, ih]

theorem take_natEpochStarts (index : CBlockIndex) (start fuel i k : Nat) :
    (natEpochStarts H consensus index start fuel i).take k =
      natEpochStarts H consensus index start (min k fuel) i := by
  induction fuel generalizing i k with
  | zero => simp [natEpochStarts]
  | succ fuel ih =>
    cases k with
    | zero => simp [natEpochStarts]
    | succ k =>
      rw [Nat.succ_min_succ]
      simp only [natEpochStarts]
      split_ifs
      · rfl
      · cases index.GetAncestor _ with
        | none => rfl
        | some p_epoch_start => rw [List.take_succ_cons, ih]

theorem take_min_length {α : Type} (items : List α) (count : Nat) :
    items.take (min items.length count) = items.take count := by
  rcases Nat.le_total items.length count with short | long
  · rw [Nat.min_eq_left short, List.take_length, List.take_of_length_le short]
  · rw [Nat.min_eq_right long]

theorem natFedpegScripts_head {n : Nat} (below : n < chain.length)
    (epochs : 0 < consensus.total_valid_epochs) :
    (natFedpegScripts H consensus (upTo chain n below) false).head? =
      some (epochFedpegScripts H consensus
        (chain.getD (n / consensus.dynamic_epoch_length.toNat * consensus.dynamic_epoch_length.toNat)
          CBlockHeader.null)) := by
  obtain ⟨fuel, total⟩ : ∃ fuel, consensus.total_valid_epochs = fuel + 1 :=
    ⟨_, (Nat.succ_pred_eq_of_pos epochs).symm⟩
  have start : n - n % consensus.dynamic_epoch_length.toNat =
      n / consensus.dynamic_epoch_length.toNat * consensus.dynamic_epoch_length.toNat := by
    have split := Nat.div_add_mod n consensus.dynamic_epoch_length.toNat
    rw [Nat.mul_comm]
    omega
  have ancestor := GetAncestor_upTo below (Nat.div_mul_le_self n consensus.dynamic_epoch_length.toNat)
  simp only [natFedpegScripts, nHeight_upTo, Bool.false_eq_true, false_and, if_false,
    List.nil_append, take_min_length, total, natEpochStarts, Nat.zero_mul, start]
  have inChain : n / consensus.dynamic_epoch_length.toNat * consensus.dynamic_epoch_length.toNat <
      chain.length := Nat.lt_of_le_of_lt (Nat.div_mul_le_self _ _) below
  simp [ancestor, List.getElem?_eq_getElem inChain]

theorem collectEpochStarts_eq_some (index : CBlockIndex) {start : Nat}
    (fits : start + consensus.dynamic_epoch_length.toNat < 2 ^ 31) (fuel : Nat) :
    ∀ i : Nat, i * consensus.dynamic_epoch_length.toNat < 2 ^ 31 →
      collectEpochStarts H consensus index consensus.dynamic_epoch_length.toNat start fuel i =
        some (natEpochStarts H consensus index start fuel i) := by
  induction fuel with
  | zero => intro i _; rfl
  | succ fuel ih =>
    intro i offsetFits
    -- the product and the difference stay in `int32_t`
    have offset : CInt.mul 32 (i : Int) consensus.dynamic_epoch_length.toNat =
        some ((i : Int) * consensus.dynamic_epoch_length.toNat) :=
      CInt.mul_natCast offsetFits
    by_cases stop : start < i * consensus.dynamic_epoch_length.toNat
    · have stop' : (start : Int) < i * consensus.dynamic_epoch_length.toNat := by exact_mod_cast stop
      simp [collectEpochStarts, natEpochStarts, offset, stop, stop']
    · have stop' : ¬(start : Int) < i * consensus.dynamic_epoch_length.toNat := by exact_mod_cast stop
      have height : CInt.sub 32 (start : Int) ((i : Int) * consensus.dynamic_epoch_length.toNat) =
          some ((start - i * consensus.dynamic_epoch_length.toNat : Nat) : Int) := by
        rw [← Int.natCast_mul]
        exact CInt.sub_natCast (by omega) (by omega)
      have next : (i + 1) * consensus.dynamic_epoch_length.toNat < 2 ^ 31 := by
        rw [Nat.succ_mul]; omega
      simp only [collectEpochStarts, natEpochStarts, offset, height, gt_iff_lt, stop, stop', if_false,
        Option.bind_eq_bind, Option.bind_some, Int.natCast_nonneg, not_lt.mpr, Int.toNat_natCast]
      cases index.GetAncestor (start - i * consensus.dynamic_epoch_length.toNat) with
      | none => rfl
      | some p_epoch_start =>
        have rest := ih (i + 1) next
        push_cast at rest
        simp [rest]

theorem GetValidFedpegScripts_eq_some (index : CBlockIndex) (nextblock_validation : Bool)
    (positive : 0 < consensus.dynamic_epoch_length.toNat)
    (fits : index.nHeight + consensus.dynamic_epoch_length.toNat < 2 ^ 31)
    (epochsFit : consensus.total_valid_epochs < 2 ^ 31) :
    GetValidFedpegScripts H consensus index nextblock_validation =
      some (natFedpegScripts H consensus index nextblock_validation) := by
  -- the casts keep both parameters, and every step stays in `int32_t`
  have length : CInt.ofUnsigned 32 consensus.dynamic_epoch_length.toNat = consensus.dynamic_epoch_length.toNat :=
    CInt.ofUnsigned_of_lt (by omega)
  have epochs : (CInt.ofUnsigned 32 (consensus.total_valid_epochs % 2 ^ 32)).toNat =
      consensus.total_valid_epochs := by
    rw [Nat.mod_eq_of_lt (by omega), CInt.ofUnsigned_of_lt (by omega), Int.toNat_natCast]
  have age : CInt.rem 32 (index.nHeight : Int) consensus.dynamic_epoch_length.toNat =
      some ((index.nHeight % consensus.dynamic_epoch_length.toNat : Nat) : Int) := by
    rw [CInt.rem_eq_some (CInt.inRange_natCast (by omega)) (by omega) (fun minByMinusOne => by omega)]
    rfl
  have start : CInt.sub 32 (index.nHeight : Int) ((index.nHeight % consensus.dynamic_epoch_length.toNat : Nat) : Int) =
      some ((index.nHeight - index.nHeight % consensus.dynamic_epoch_length.toNat : Nat) : Int) :=
    CInt.sub_natCast (Nat.mod_le _ _) (by omega)
  have last : CInt.sub 32 (consensus.dynamic_epoch_length.toNat : Int) 1 =
      some ((consensus.dynamic_epoch_length.toNat - 1 : Nat) : Int) := by
    rw [show (1 : Int) = ((1 : Nat) : Int) from rfl]
    exact CInt.sub_natCast positive (by omega)
  have walk := collectEpochStarts_eq_some H consensus index
    (show index.nHeight - index.nHeight % consensus.dynamic_epoch_length.toNat +
      consensus.dynamic_epoch_length.toNat < 2 ^ 31 by omega) consensus.total_valid_epochs 0 (by omega)
  rw [Nat.cast_zero] at walk
  -- the look-ahead is read only in the mempool, at the last block of an epoch
  cases nextblock_validation with
  | false =>
    simp only [GetValidFedpegScripts, natFedpegScripts, length, epochs, age, start, walk,
      Option.bind_eq_bind, Option.bind_some, Option.pure_def, Bool.false_eq_true, false_and, if_false]
  | true =>
    by_cases boundary : index.nHeight % consensus.dynamic_epoch_length.toNat = consensus.dynamic_epoch_length.toNat - 1
    · simp only [GetValidFedpegScripts, natFedpegScripts, length, epochs, age, start, last, walk, Nat.cast_inj,
        if_pos boundary, Option.bind_eq_bind, Option.bind_some, Option.pure_def, true_and, if_true]
    · simp only [GetValidFedpegScripts, natFedpegScripts, length, epochs, age, start, last, walk, Nat.cast_inj,
        if_neg boundary, Option.bind_eq_bind, Option.bind_some, Option.pure_def, true_and, if_true]

theorem succ_mod_of_ne_last {t length : Nat} (epochs : 0 < length) (notLast : t % length ≠ length - 1) :
    (t + 1) % length = t % length + 1 := by
  have below := Nat.mod_lt t epochs
  have wide : 1 < length := by
    by_contra narrow
    have one : length = 1 := by omega
    rw [one, Nat.mod_one] at notLast
    exact notLast rfl
  rw [Nat.add_mod, Nat.mod_eq_of_lt wide, Nat.mod_eq_of_lt (by omega)]

theorem succ_mod_of_last {t length : Nat} (epochs : 0 < length) (last : t % length = length - 1) :
    (t + 1) % length = 0 := by
  rw [Nat.add_mod, last]
  rcases Nat.lt_or_ge 1 length with wide | narrow
  · rw [Nat.mod_eq_of_lt wide, Nat.sub_add_cancel epochs, Nat.mod_self]
  · have one : length = 1 := by omega
    rw [one]

theorem one_mod_ne_zero_of_div_eq_zero {n length : Nat} (first : (n + 1) / length = 0) :
    1 % length ≠ 0 := by
  rcases Nat.lt_or_ge 1 length with wide | narrow
  · rw [Nat.mod_eq_of_lt wide]
    exact Nat.one_ne_zero
  · rcases Nat.le_one_iff_eq_zero_or_eq_one.mp narrow with zero | single
    · simp [zero]
    · simp [single] at first

end Fedpeg

section Lookahead

variable {chain : List CBlockHeader}

theorem natFedpegScripts_lookahead (accepted : Accepted H params chain)
    (epochs : 0 < params.consensus.dynamic_epoch_length.toNat) {t : Nat} (below : t + 1 < chain.length)
    (active : DeploymentActiveAfter params (upTo chain t (by omega)) = true) :
    natFedpegScripts H params.consensus (upTo chain t (by omega)) true =
      natFedpegScripts H params.consensus (upTo chain (t + 1) below) false := by
  have agree : ∀ height ≤ t, (upTo chain t (by omega)).GetAncestor height =
      (upTo chain (t + 1) below).GetAncestor height := by
    intro height le
    rw [GetAncestor_upTo _ le, GetAncestor_upTo _ (by omega)]
  have ageBelow := Nat.mod_lt t epochs
  have startLe : t - t % params.consensus.dynamic_epoch_length.toNat ≤ t := Nat.sub_le _ _
  by_cases last : t % params.consensus.dynamic_epoch_length.toNat =
      params.consensus.dynamic_epoch_length.toNat - 1
  · -- the tip ends an epoch: the child starts the next one and enforces what it publishes
    have childAge := succ_mod_of_last epochs last
    have start : t + 1 = t - t % params.consensus.dynamic_epoch_length.toNat +
        params.consensus.dynamic_epoch_length.toNat := by
      have ageLe := Nat.mod_le t params.consensus.dynamic_epoch_length.toNat
      omega
    rcases accepted.current H params below active with ⟨notNull, published⟩
    rw [ComputeNextBlockCurrentParameters_of_mod_eq H _ (by rw [nHeight_upTo]; exact childAge)] at published
    have enforced : epochFedpegScripts H params.consensus chain[t + 1] =
        ((ComputeNextBlockFullCurrentParameters H params.consensus (upTo chain t (by omega))).m_fedpeg_program,
          (ComputeNextBlockFullCurrentParameters H params.consensus (upTo chain t (by omega))).m_fedpegscript) := by
      have paramsNotNull : chain[t + 1].m_dynafed_params.IsNull = false := by
        simp [DynaFedParams.IsNull, notNull]
      simp only [epochFedpegScripts, paramsNotNull, Bool.not_false, if_true]
      exact (DynaFedParamEntry.fedpeg_eq_of_operatorEq published).symm
    -- the child's walk opens at itself, then goes on as the tip's walk
    have walk : ∀ fuel, natEpochStarts H params.consensus (upTo chain (t + 1) below) (t + 1) (fuel + 1) 0 =
        epochFedpegScripts H params.consensus chain[t + 1] ::
          natEpochStarts H params.consensus (upTo chain t (by omega))
            (t - t % params.consensus.dynamic_epoch_length.toNat) fuel 0 := by
      intro fuel
      have shift := natEpochStarts_shift H params.consensus (upTo chain (t + 1) below)
        (t - t % params.consensus.dynamic_epoch_length.toNat) fuel 0
      rw [← start] at shift
      rw [natEpochStarts, if_neg (by omega), Nat.zero_mul, Nat.sub_zero,
        GetAncestor_upTo below (Nat.le_refl _)]
      rw [shift, natEpochStarts_congr H _ (fun height le => agree height (by omega))]
    simp only [natFedpegScripts, nHeight_upTo, last, childAge, and_self, if_true,
      Bool.false_eq_true, false_and, if_false, List.nil_append, List.singleton_append,
      take_min_length, Nat.sub_zero]
    cases total : params.consensus.total_valid_epochs with
    | zero => simp
    | succ fuel =>
      rw [List.take_succ_cons, take_natEpochStarts, take_natEpochStarts,
        Nat.min_eq_left (Nat.le_succ fuel), Nat.min_self, walk, enforced, last]
  · -- inside an epoch neither side looks ahead, and both walk back from one start
    have childAge := succ_mod_of_ne_last epochs last
    have start : t + 1 - (t % params.consensus.dynamic_epoch_length.toNat + 1) =
        t - t % params.consensus.dynamic_epoch_length.toNat := by omega
    simp only [natFedpegScripts, nHeight_upTo, last, childAge, start, and_false, if_false,
      Bool.false_eq_true, false_and, List.nil_append, take_min_length]
    rw [natEpochStarts_congr H _ (fun height le => agree height (by omega))]

theorem natFedpegScripts_head_eq_full (accepted : Accepted H params chain)
    (genesis : ∀ g ∈ chain.head?, g.m_dynafed_params = DynaFedParams.null)
    (noP2wsh : params.consensus.start_p2wsh_script = false)
    (epochs : 0 < params.consensus.total_valid_epochs) {m : Nat} (below : m + 1 < chain.length)
    (active : DeploymentActiveAfter params (upTo chain m (by omega)) = true) :
    (natFedpegScripts H params.consensus (upTo chain (m + 1) below) false).head? =
      some ((ComputeNextBlockFullCurrentParameters H params.consensus (upTo chain m (by omega))).m_fedpeg_program,
        (ComputeNextBlockFullCurrentParameters H params.consensus (upTo chain m (by omega))).m_fedpegscript) := by
  have derived := DynaFedParamEntry.fedpeg_eq_of_operatorEq
    (full_operatorEq_reference H params accepted genesis below (fun _ => active))
  rw [natFedpegScripts_head H _ below epochs, derived, epochFedpegScripts_eq H _ noP2wsh]
  -- the walk reads the epoch start, the derivation its reference block
  by_cases special : params.consensus.genesis_style = .elements ∧ params.consensus.dynafedAlwaysActive ∧
      (m + 1) / params.consensus.dynamic_epoch_length.toNat = 0
  · rcases special with ⟨elements, always, first⟩
    have reference : epochReference params.consensus (m + 1) = 1 := by
      simp [epochReference, elements, always, first]
    have alwaysActive : DeploymentActiveAfter params (upTo chain 0 (by omega)) = true := by
      simp [DeploymentActiveAfter, always]
    have same := DynaFedParamEntry.fedpeg_eq_of_operatorEq (accepted.first H params genesis (by omega)
      (one_mod_ne_zero_of_div_eq_zero first) alwaysActive)
    rw [reference, first, Nat.zero_mul, List.getD_eq_getElem _ _ (by omega),
      List.getD_eq_getElem _ _ (by omega), same]
  · have reference : epochReference params.consensus (m + 1) =
        (m + 1) / params.consensus.dynamic_epoch_length.toNat * params.consensus.dynamic_epoch_length.toNat := by
      simp only [epochReference]
      rw [if_neg special]
    rw [reference]

theorem natFedpegScripts_ignores_start_p2wsh_script
    (p2wsh : params.consensus.start_p2wsh_script = true)
    (wide : 2 ≤ params.consensus.dynamic_epoch_length.toNat)
    (always : params.consensus.dynafedAlwaysActive = true)
    (epochs : 0 < params.consensus.total_valid_epochs) :
    Accepted H params (legacyStartChain H params.consensus) ∧
      DeploymentActiveAfter params (upTo (legacyStartChain H params.consensus) 0 (by simp [legacyStartChain])) ∧
      (natFedpegScripts H params.consensus
          (upTo (legacyStartChain H params.consensus) 1 (by simp [legacyStartChain])) false).head? ≠
        some ((ComputeNextBlockFullCurrentParameters H params.consensus
            (upTo (legacyStartChain H params.consensus) 0 (by simp [legacyStartChain]))).m_fedpeg_program,
          (ComputeNextBlockFullCurrentParameters H params.consensus
            (upTo (legacyStartChain H params.consensus) 0 (by simp [legacyStartChain]))).m_fedpegscript) := by
  have below : 1 < (legacyStartChain H params.consensus).length := by simp [legacyStartChain]
  refine ⟨legacyStartChain_accepted H params wide always, by simp [DeploymentActiveAfter, always], ?_⟩
  have age : (0 + 1) % params.consensus.dynamic_epoch_length.toNat ≠ 0 := by
    rw [Nat.zero_add, Nat.mod_eq_of_lt (by omega)]
    exact Nat.one_ne_zero
  have start : midEpochStart params.consensus (0 + 1) = 0 := Nat.le_zero.mp (midEpochStart_le _ age)
  have epochStart : 1 / params.consensus.dynamic_epoch_length.toNat *
      params.consensus.dynamic_epoch_length.toNat = 0 := by
    rw [Nat.div_eq_of_lt (by omega), Nat.zero_mul]
  rw [natFedpegScripts_head H _ below epochs, epochStart,
    ComputeNextBlockFullCurrentParameters_of_mod_ne H _ (by omega) age, start]
  -- both read genesis: the walk as P2SH-wrapped P2WSH, the derivation as P2WSH
  have genesisNull : CBlockHeader.null.m_dynafed_params.IsNull = true := rfl
  have derived : (epochStartParameters H params.consensus CBlockHeader.null).m_fedpeg_program =
      witnessV0ScriptHashScript H params.consensus.fedpegScript := by
    simp [epochStartParameters, genesisNull, legacyFullParameters, p2wsh, DynaFedParamEntry.mkFull]
  intro same
  simp only [legacyStartChain, List.getD_cons_zero, epochFedpegScripts, genesisNull, Bool.not_true,
    Bool.false_eq_true, if_false, Option.some.injEq, Prod.mk.injEq, derived] at same
  exact scriptHashScript_ne_witnessV0ScriptHashScript H _ _ same.1

/-- The mempool's look-ahead at a tip gives the scripts its child enforces, where the epoch length
and the heights stay below `2 ^ 31` and the `int32_t` arithmetic is that of natural numbers. -/
theorem GetValidFedpegScripts_lookahead (accepted : Accepted H params chain)
    (epochs : 0 < params.consensus.dynamic_epoch_length.toNat)
    (fits : chain.length + params.consensus.dynamic_epoch_length.toNat ≤ 2 ^ 31)
    (epochsFit : params.consensus.total_valid_epochs < 2 ^ 31) {t : Nat} (below : t + 1 < chain.length)
    (active : DeploymentActiveAfter params (upTo chain t (by omega)) = true) :
    ∃ scripts, GetValidFedpegScripts H params.consensus (upTo chain t (by omega)) true = some scripts ∧
      GetValidFedpegScripts H params.consensus (upTo chain (t + 1) below) false = some scripts := by
  refine ⟨_, GetValidFedpegScripts_eq_some H _ _ true epochs (by rw [nHeight_upTo]; omega) epochsFit, ?_⟩
  rw [GetValidFedpegScripts_eq_some H _ _ false epochs (by rw [nHeight_upTo]; omega) epochsFit,
    natFedpegScripts_lookahead H params accepted epochs below active]

theorem GetValidFedpegScripts_lookahead_legacyStart :
    let params : ChainParams :=
      ⟨⟨2, 1, .elements, true, [], false, 0, []⟩, false, fun _ => false, fun _ => false⟩
    let chain := legacyStartChain rightLeafHashes params.consensus
    ∃ scripts, GetValidFedpegScripts rightLeafHashes params.consensus (upTo chain 0 (by decide)) true = some scripts ∧
      GetValidFedpegScripts rightLeafHashes params.consensus (upTo chain (0 + 1) (by decide)) false = some scripts := by
  intro params chain
  exact GetValidFedpegScripts_lookahead rightLeafHashes params
    (legacyStartChain_accepted rightLeafHashes params (by decide) rfl) (by decide) (by decide) (by decide)
    (by decide) rfl

/-- Without `start_p2wsh_script`, the newest fedpeg scripts a dynamic federation block checks
peg-ins against are those of the full parameters it derives from its parent, where the epoch
length and the heights stay below `2 ^ 31`. -/
theorem GetValidFedpegScripts_head_eq_full (accepted : Accepted H params chain)
    (genesis : ∀ g ∈ chain.head?, g.m_dynafed_params = DynaFedParams.null)
    (noP2wsh : params.consensus.start_p2wsh_script = false)
    (positive : 0 < params.consensus.dynamic_epoch_length.toNat)
    (fits : chain.length + params.consensus.dynamic_epoch_length.toNat ≤ 2 ^ 31)
    (epochs : 0 < params.consensus.total_valid_epochs) (epochsFit : params.consensus.total_valid_epochs < 2 ^ 31)
    {m : Nat} (below : m + 1 < chain.length)
    (active : DeploymentActiveAfter params (upTo chain m (by omega)) = true) :
    ∃ scripts, GetValidFedpegScripts H params.consensus (upTo chain (m + 1) below) false = some scripts ∧
      scripts.head? =
        some ((ComputeNextBlockFullCurrentParameters H params.consensus (upTo chain m (by omega))).m_fedpeg_program,
          (ComputeNextBlockFullCurrentParameters H params.consensus (upTo chain m (by omega))).m_fedpegscript) :=
  ⟨_, GetValidFedpegScripts_eq_some H _ _ false positive (by rw [nHeight_upTo]; omega) epochsFit,
    natFedpegScripts_head_eq_full H params accepted genesis noP2wsh epochs below active⟩

theorem GetValidFedpegScripts_head_eq_full_legacyStart :
    let params : ChainParams :=
      ⟨⟨2, 1, .elements, true, [], false, 0, []⟩, false, fun _ => false, fun _ => false⟩
    let chain := legacyStartChain rightLeafHashes params.consensus
    ∃ scripts, GetValidFedpegScripts rightLeafHashes params.consensus (upTo chain (0 + 1) (by decide)) false =
        some scripts ∧
      scripts.head? =
        some ((ComputeNextBlockFullCurrentParameters rightLeafHashes params.consensus
            (upTo chain 0 (by decide))).m_fedpeg_program,
          (ComputeNextBlockFullCurrentParameters rightLeafHashes params.consensus
            (upTo chain 0 (by decide))).m_fedpegscript) := by
  intro params chain
  exact GetValidFedpegScripts_head_eq_full rightLeafHashes params
    (legacyStartChain_accepted rightLeafHashes params (by decide) rfl) (by decide) rfl (by decide) (by decide)
    (by decide) (by decide) (by decide) rfl

/-- With `start_p2wsh_script` and an epoch length from 2 to `2 ^ 31 - 2`, block 1 derives the P2WSH
fedpeg program its genesis stands for, while peg-ins into it are checked against the P2SH-wrapped
one: the walk over epoch starts does not read the setting. -/
theorem GetValidFedpegScripts_ignores_start_p2wsh_script
    (p2wsh : params.consensus.start_p2wsh_script = true)
    (wide : 2 ≤ params.consensus.dynamic_epoch_length.toNat)
    (fits : params.consensus.dynamic_epoch_length.toNat ≤ 2 ^ 31 - 2)
    (always : params.consensus.dynafedAlwaysActive = true)
    (epochs : 0 < params.consensus.total_valid_epochs) (epochsFit : params.consensus.total_valid_epochs < 2 ^ 31) :
    Accepted H params (legacyStartChain H params.consensus) ∧
      DeploymentActiveAfter params (upTo (legacyStartChain H params.consensus) 0 (by simp [legacyStartChain])) ∧
      ∃ scripts, GetValidFedpegScripts H params.consensus
          (upTo (legacyStartChain H params.consensus) 1 (by simp [legacyStartChain])) false = some scripts ∧
        scripts.head? ≠
          some ((ComputeNextBlockFullCurrentParameters H params.consensus
              (upTo (legacyStartChain H params.consensus) 0 (by simp [legacyStartChain]))).m_fedpeg_program,
            (ComputeNextBlockFullCurrentParameters H params.consensus
              (upTo (legacyStartChain H params.consensus) 0 (by simp [legacyStartChain]))).m_fedpegscript) := by
  obtain ⟨accepted, active, differs⟩ :=
    natFedpegScripts_ignores_start_p2wsh_script H params p2wsh wide always epochs
  exact ⟨accepted, active, _, GetValidFedpegScripts_eq_some H _ _ false (by omega)
    (by rw [nHeight_upTo]; omega) epochsFit, differs⟩

theorem GetValidFedpegScripts_ignores_start_p2wsh_script_two :
    let params : ChainParams :=
      ⟨⟨2, 1, .elements, true, [], true, 0, []⟩, false, fun _ => false, fun _ => false⟩
    let chain := legacyStartChain rightLeafHashes params.consensus
    Accepted rightLeafHashes params chain ∧ DeploymentActiveAfter params (upTo chain 0 (by decide)) ∧
      ∃ scripts, GetValidFedpegScripts rightLeafHashes params.consensus (upTo chain 1 (by decide)) false =
          some scripts ∧
        scripts.head? ≠
          some ((ComputeNextBlockFullCurrentParameters rightLeafHashes params.consensus
              (upTo chain 0 (by decide))).m_fedpeg_program,
            (ComputeNextBlockFullCurrentParameters rightLeafHashes params.consensus
              (upTo chain 0 (by decide))).m_fedpegscript) := by
  intro params chain
  exact GetValidFedpegScripts_ignores_start_p2wsh_script rightLeafHashes params rfl (by decide) (by decide) rfl
    (by decide) (by decide)

end Lookahead

end Elements
