import Elements.Dynafed.Epochs
import Elements.Algebra.Quorum

/-! The vote count of `NextBlockIsParameterTransition` as a tally: the scan
over the epoch's proposals is the first-to-reach scan of `Quorum`, keyed by
the proposal root and open to non-null roots. The threshold is computed in
`uint32_t` as `(dynamic_epoch_length * 4) / 5`, which is four fifths of the
epoch while the product fits in 32 bits. -/

namespace Elements

open CBlockIndex

variable (H : Hashes)

/-- The root the block at `height` proposes. -/
def proposalRootAt (pindexPrev : CBlockIndex) (height : Nat) : Option Uint256 :=
  (pindexPrev.GetAncestor height).map fun header => header.m_dynafed_params.m_proposed.CalculateRoot H

/-- How many of the blocks at heights `next_height - L` to `next_height - 1`
propose root `R`, for `L` the epoch length. -/
def epochVotes (consensus : ConsensusParams) (pindexPrev : CBlockIndex) (R : Uint256) : Nat :=
  let next_height := pindexPrev.nHeight + 1
  ((List.range consensus.dynamic_epoch_length.toNat).filter fun back =>
    proposalRootAt H pindexPrev (next_height - 1 - back) = some R).length

def epochProposals (consensus : ConsensusParams) (pindexPrev : CBlockIndex) :
    List DynaFedParamEntry :=
  let next_height := pindexPrev.nHeight + 1
  (List.range consensus.dynamic_epoch_length.toNat).filterMap fun back =>
    (pindexPrev.GetAncestor (next_height - 1 - back)).map (·.m_dynafed_params.m_proposed)

/-- The threshold as the source computes it, in 32 bits. -/
def voteThreshold (consensus : ConsensusParams) : Nat :=
  (consensus.dynamic_epoch_length * 4 / 5).toNat

theorem tallyVotes_eq_firstToReach (threshold : Nat) (vote_tally : List Uint256)
    (proposals : List DynaFedParamEntry) :
    tallyVotes H threshold vote_tally proposals =
      Quorum.firstToReach (·.CalculateRoot H) (fun root => !root.IsNull) threshold vote_tally
        proposals := by
  induction proposals generalizing vote_tally with
  | nil => rfl
  | cons proposal proposals ih => simp only [tallyVotes, Quorum.firstToReach, ih, ge_iff_le]

theorem NextBlockIsParameterTransition_eq (consensus : ConsensusParams) (pindexPrev : CBlockIndex) :
    NextBlockIsParameterTransition H consensus pindexPrev =
      if (pindexPrev.nHeight + 1) % consensus.dynamic_epoch_length.toNat ≠ 0 then none
      else Quorum.firstToReach (·.CalculateRoot H) (fun root => !root.IsNull)
        (voteThreshold consensus) [] (epochProposals consensus pindexPrev) := by
  simp only [NextBlockIsParameterTransition, tallyVotes_eq_firstToReach, epochProposals,
    voteThreshold]

theorem GetAncestor_isSome (pindexPrev : CBlockIndex) {height : Nat} (le : height ≤ pindexPrev.nHeight) :
    (pindexPrev.GetAncestor height).isSome := by
  have below : height < pindexPrev.headers.length := by
    have nonempty := List.length_pos_iff.mpr pindexPrev.nonempty
    simp only [nHeight] at le
    omega
  simp [GetAncestor, below]

theorem length_epochProposals (consensus : ConsensusParams) (pindexPrev : CBlockIndex) :
    (epochProposals consensus pindexPrev).length = consensus.dynamic_epoch_length.toNat := by
  rw [epochProposals, List.length_filterMap_eq_countP, List.countP_eq_length.mpr, List.length_range]
  intro back _
  simpa using GetAncestor_isSome pindexPrev (Nat.sub_le pindexPrev.nHeight back)

theorem count_epochProposals (consensus : ConsensusParams) (pindexPrev : CBlockIndex) (R : Uint256) :
    ((epochProposals consensus pindexPrev).map (·.CalculateRoot H)).count R =
      epochVotes H consensus pindexPrev R := by
  rw [epochProposals, epochVotes, List.map_filterMap, List.count_eq_countP, List.countP_filterMap,
    ← List.countP_eq_length_filter]
  apply List.countP_congr
  intro back _
  simp only [proposalRootAt, Nat.add_sub_cancel]
  rcases pindexPrev.GetAncestor (pindexPrev.nHeight - back) with _ | ancestor
  · simp
  · simp

theorem voteThreshold_of_lt {consensus : ConsensusParams}
    (noWrap : 4 * consensus.dynamic_epoch_length.toNat < 2 ^ 32) :
    voteThreshold consensus = 4 * consensus.dynamic_epoch_length.toNat / 5 := by
  rw [voteThreshold, UInt32.toNat_div, UInt32.toNat_mul, Nat.mod_eq_of_lt (by simpa [Nat.mul_comm] using noWrap)]
  simp [Nat.mul_comm]

theorem GetAncestor_nHeight (pindexPrev : CBlockIndex) :
    pindexPrev.GetAncestor pindexPrev.nHeight = some pindexPrev.header := by
  simp [GetAncestor, nHeight, header, List.getLast_eq_getElem]

/-- A chain in which only the newest block proposes an entry: `older` null
headers, then one proposing `proposal`. -/
def lateProposalChain (older : Nat) (proposal : DynaFedParamEntry) : CBlockIndex :=
  ⟨List.replicate older CBlockHeader.null ++
    [{ CBlockHeader.null with m_dynafed_params := ⟨DynaFedParamEntry.null, proposal⟩ }], by simp⟩

section LateProposal

variable {older : Nat} {proposal : DynaFedParamEntry}

theorem nHeight_lateProposalChain : (lateProposalChain older proposal).nHeight = older := by
  simp [lateProposalChain, nHeight]

theorem proposed_lateProposalChain :
    (lateProposalChain older proposal).dynafed_params.m_proposed = proposal := by
  simp [lateProposalChain, dynafed_params, header]

theorem proposalRootAt_lateProposalChain {height : Nat} (below : height < older) :
    proposalRootAt H (lateProposalChain older proposal) height = some Uint256.zero := by
  rw [proposalRootAt, lateProposalChain, GetAncestor,
    List.getElem?_append_left (by simpa using below), List.getElem?_replicate, if_pos below]
  rfl

end LateProposal

/-- While the threshold does not wrap: at an epoch start a proposal wins
exactly when some non-null root is proposed by at least four fifths of the
epoch's blocks, and the winner is a proposal of the epoch with such a root;
at any other height nothing wins. -/
theorem NextBlockIsParameterTransition_tally (consensus : ConsensusParams) (pindexPrev : CBlockIndex)
    (asserted : 0 < consensus.dynamic_epoch_length.toNat) (noWrap : 4 * consensus.dynamic_epoch_length.toNat < 2 ^ 32) :
    ((pindexPrev.nHeight + 1) % consensus.dynamic_epoch_length.toNat ≠ 0 →
        NextBlockIsParameterTransition H consensus pindexPrev = none) ∧
      ((pindexPrev.nHeight + 1) % consensus.dynamic_epoch_length.toNat = 0 →
        ((NextBlockIsParameterTransition H consensus pindexPrev).isSome ↔
          ∃ R, R.IsNull = false ∧ 0 < epochVotes H consensus pindexPrev R ∧
            4 * consensus.dynamic_epoch_length.toNat / 5 ≤ epochVotes H consensus pindexPrev R) ∧
        ∀ winning_entry, NextBlockIsParameterTransition H consensus pindexPrev = some winning_entry →
          winning_entry ∈ epochProposals consensus pindexPrev ∧
            (winning_entry.CalculateRoot H).IsNull = false ∧
            4 * consensus.dynamic_epoch_length.toNat / 5 ≤
              epochVotes H consensus pindexPrev (winning_entry.CalculateRoot H)) := by
  rw [NextBlockIsParameterTransition_eq, ← voteThreshold_of_lt noWrap]
  refine ⟨fun off => if_pos off, fun boundary => ?_⟩
  rw [if_neg (not_not.mpr boundary)]
  constructor
  · rw [Quorum.firstToReach_isSome_iff]
    constructor
    · rintro ⟨R, proposed, eligible, reached⟩
      rw [count_epochProposals] at reached
      refine ⟨R, by simpa using eligible, ?_, reached⟩
      rw [← count_epochProposals]
      exact List.count_pos_iff.mpr proposed
    · rintro ⟨R, nonNull, proposed, reached⟩
      rw [← count_epochProposals] at proposed reached
      exact ⟨R, List.count_pos_iff.mp proposed, by simp [nonNull], reached⟩
  · intro winning_entry wins
    rcases Quorum.firstToReach_spec wins with ⟨member, eligible, reached⟩
    rw [List.nil_append, count_epochProposals] at reached
    exact ⟨member, by simpa using eligible, reached⟩

theorem NextBlockIsParameterTransition_tally_three :
    let consensus : ConsensusParams := ⟨3, 1, .elements, true, [], false, 0, []⟩
    let pindexPrev := lateProposalChain 2 DynaFedParamEntry.null
    0 < consensus.dynamic_epoch_length.toNat ∧ 4 * consensus.dynamic_epoch_length.toNat < 2 ^ 32 ∧
      ((pindexPrev.nHeight + 1) % consensus.dynamic_epoch_length.toNat ≠ 0 →
          NextBlockIsParameterTransition rightLeafHashes consensus pindexPrev = none) ∧
        ((pindexPrev.nHeight + 1) % consensus.dynamic_epoch_length.toNat = 0 →
          ((NextBlockIsParameterTransition rightLeafHashes consensus pindexPrev).isSome ↔
            ∃ R, R.IsNull = false ∧ 0 < epochVotes rightLeafHashes consensus pindexPrev R ∧
              4 * consensus.dynamic_epoch_length.toNat / 5 ≤ epochVotes rightLeafHashes consensus pindexPrev R) ∧
          ∀ winning_entry,
            NextBlockIsParameterTransition rightLeafHashes consensus pindexPrev = some winning_entry →
            winning_entry ∈ epochProposals consensus pindexPrev ∧
              (winning_entry.CalculateRoot rightLeafHashes).IsNull = false ∧
              4 * consensus.dynamic_epoch_length.toNat / 5 ≤
                epochVotes rightLeafHashes consensus pindexPrev (winning_entry.CalculateRoot rightLeafHashes)) :=
  ⟨by decide, by decide, NextBlockIsParameterTransition_tally rightLeafHashes _ _ (by decide) (by decide)⟩

/-- From epochs of three blocks on, four fifths is more than half: at most
one root reaches it, and scanning the epoch's proposals in any order elects
a proposal with the same root. -/
theorem NextBlockIsParameterTransition_order_independent (consensus : ConsensusParams)
    (pindexPrev : CBlockIndex) (atLeastThree : 3 ≤ consensus.dynamic_epoch_length.toNat)
    (noWrap : 4 * consensus.dynamic_epoch_length.toNat < 2 ^ 32)
    (boundary : (pindexPrev.nHeight + 1) % consensus.dynamic_epoch_length.toNat = 0) :
    (∀ R R', 4 * consensus.dynamic_epoch_length.toNat / 5 ≤ epochVotes H consensus pindexPrev R →
        4 * consensus.dynamic_epoch_length.toNat / 5 ≤ epochVotes H consensus pindexPrev R' → R = R') ∧
      ∀ order : List DynaFedParamEntry, order.Perm (epochProposals consensus pindexPrev) →
        (tallyVotes H (voteThreshold consensus) [] order).map (·.CalculateRoot H) =
          (NextBlockIsParameterTransition H consensus pindexPrev).map (·.CalculateRoot H) := by
  have majority : (epochProposals consensus pindexPrev).length < 2 * voteThreshold consensus := by
    rw [length_epochProposals, voteThreshold_of_lt noWrap]
    omega
  constructor
  · intro R R' reached reached'
    rw [← voteThreshold_of_lt noWrap, ← count_epochProposals] at reached reached'
    exact Quorum.eq_of_reached (by simpa using majority) reached reached'
  · intro order reordered
    rw [NextBlockIsParameterTransition_eq, if_neg (not_not.mpr boundary), tallyVotes_eq_firstToReach]
    exact Quorum.firstToReach_key_perm reordered.symm majority

theorem NextBlockIsParameterTransition_order_independent_three :
    let consensus : ConsensusParams := ⟨3, 1, .elements, true, [], false, 0, []⟩
    let pindexPrev := lateProposalChain 2 DynaFedParamEntry.null
    3 ≤ consensus.dynamic_epoch_length.toNat ∧ 4 * consensus.dynamic_epoch_length.toNat < 2 ^ 32 ∧
      (pindexPrev.nHeight + 1) % consensus.dynamic_epoch_length.toNat = 0 ∧
      (∀ R R', 4 * consensus.dynamic_epoch_length.toNat / 5 ≤ epochVotes rightLeafHashes consensus pindexPrev R →
        4 * consensus.dynamic_epoch_length.toNat / 5 ≤ epochVotes rightLeafHashes consensus pindexPrev R' →
          R = R') ∧
      ∀ order : List DynaFedParamEntry, order.Perm (epochProposals consensus pindexPrev) →
        (tallyVotes rightLeafHashes (voteThreshold consensus) [] order).map
            (·.CalculateRoot rightLeafHashes) =
          (NextBlockIsParameterTransition rightLeafHashes consensus pindexPrev).map
            (·.CalculateRoot rightLeafHashes) := by
  intro consensus pindexPrev
  have boundary : (pindexPrev.nHeight + 1) % consensus.dynamic_epoch_length.toNat = 0 := by
    rw [nHeight_lateProposalChain]
    decide
  exact ⟨by decide, by decide, boundary,
    NextBlockIsParameterTransition_order_independent rightLeafHashes consensus pindexPrev (by decide)
      (by decide) boundary⟩

/-- From epochs of 2^30 blocks on, the 32-bit product wraps: with 2^30 the
threshold is zero, and the newest block of the epoch wins with its proposal
alone. -/
theorem NextBlockIsParameterTransition_threshold_wraps (consensus : ConsensusParams)
    (pindexPrev : CBlockIndex) (epoch : consensus.dynamic_epoch_length = 1073741824)
    (height : pindexPrev.nHeight + 1 = 1073741824) {proposal : DynaFedParamEntry}
    (latest : pindexPrev.dynafed_params.m_proposed = proposal)
    (proposed : (proposal.CalculateRoot H).IsNull = false)
    (alone : ∀ h < 1073741823, proposalRootAt H pindexPrev h ≠ some (proposal.CalculateRoot H)) :
    NextBlockIsParameterTransition H consensus pindexPrev = some proposal ∧
      epochVotes H consensus pindexPrev (proposal.CalculateRoot H) = 1 ∧
      1 < 4 * consensus.dynamic_epoch_length.toNat / 5 := by
  have length : consensus.dynamic_epoch_length.toNat = 1073741823 + 1 := by
    rw [epoch]
    rfl
  have zero : voteThreshold consensus = 0 := by
    rw [voteThreshold, epoch]
    decide
  -- the newest block, one back from the next height, is scanned first
  have newest : pindexPrev.GetAncestor (pindexPrev.nHeight + 1 - 1 - 0) = some pindexPrev.header := by
    rw [Nat.add_sub_cancel, Nat.sub_zero, GetAncestor_nHeight]
  have proposesHere : proposalRootAt H pindexPrev (pindexPrev.nHeight + 1 - 1 - 0) =
      some (proposal.CalculateRoot H) := by
    rw [proposalRootAt, newest, Option.map_some, ← latest]
    rfl
  refine ⟨?_, ?_, by rw [epoch]; decide⟩
  · rw [NextBlockIsParameterTransition_eq, if_neg (by rw [height, length]; decide)]
    simp only [epochProposals]
    rw [length, List.range_succ_eq_map, List.filterMap_cons, newest, Option.map_some,
      Quorum.firstToReach, zero, if_pos]
    · rw [← latest]
      rfl
    · simp [← latest, dynafed_params] at proposed ⊢
      exact proposed
  · simp only [epochVotes]
    rw [length, List.range_succ_eq_map, List.filter_cons, if_pos (decide_eq_true proposesHere),
      List.length_cons, List.filter_map, List.length_map, Nat.add_eq_right, List.length_eq_zero_iff]
    apply List.filter_eq_nil_iff.mpr
    intro back member
    have older : pindexPrev.nHeight + 1 - 1 - (back + 1) < 1073741823 := by
      rw [height]
      have := List.mem_range.mp member
      omega
    simpa using alone _ older

theorem NextBlockIsParameterTransition_threshold_wraps_late :
    let consensus : ConsensusParams := ⟨1073741824, 1, .elements, true, [], false, 0, []⟩
    let proposal := DynaFedParamEntry.mkPruned [] 0 ⟨List.replicate 32 1, by simp⟩
    NextBlockIsParameterTransition rightLeafHashes consensus (lateProposalChain 1073741823 proposal) =
        some proposal ∧
      epochVotes rightLeafHashes consensus (lateProposalChain 1073741823 proposal)
          (proposal.CalculateRoot rightLeafHashes) = 1 ∧
      1 < 4 * consensus.dynamic_epoch_length.toNat / 5 := by
  intro consensus proposal
  have root : proposal.CalculateRoot rightLeafHashes = ⟨List.replicate 32 1, by simp⟩ := by
    simp only [proposal, DynaFedParamEntry.CalculateRoot, DynaFedParamEntry.mkPruned,
      DynaFedParamEntry.null]
    rw [if_pos trivial, Hashes.ComputeFastMerkleRoot_pair, rightLeafHashes_MerkleHash_Sha256Midstate]
    exact if_neg (by decide)
  exact NextBlockIsParameterTransition_threshold_wraps rightLeafHashes consensus _ rfl
    (by rw [nHeight_lateProposalChain]) proposed_lateProposalChain (by rw [root]; decide)
    (fun h below => by rw [proposalRootAt_lateProposalChain _ below, root]; decide)

end Elements
