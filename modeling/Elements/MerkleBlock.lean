import Elements.Consensus.MerkleRoot
import Elements.Primitives.Transaction
import Elements.Tree.Branch
import Elements.Wire.Bits

/-! `merkleblock.cpp`: partial merkle trees, the proofs that transactions are
in a block carried by `CMerkleBlock` and by peg-in witnesses.

The tree is built from a block's txids and one match flag per transaction by
a depth-first walk over the merkle tree that stores one bit per node visited,
set when the node is above a matched txid, and the hash of every node it does
not descend into. `TraverseAndExtract` repeats the walk over the bits and
hashes it is given and `ExtractMatches` checks that it consumed all of them.
On the wire the bits are packed eight to a byte, so a tree read back has its
bits padded with zeros to a whole byte.

The source's `unsigned int` counters and positions are `Nat` here:
`ExtractMatches` refuses more than `MAX_BLOCK_WEIGHT / MIN_TRANSACTION_WEIGHT`
transactions before it walks, and below that bound no shift overflows. -/

namespace Elements

open Wire Wire.Decoder Merkle

/-- `BitsToBytes`: `ret[p / 8] |= bits[p] << (p % 8)` for every bit,
gathered byte by byte. -/
def BitsToBytes (bits : List Bool) : Bytes :=
  (List.range ((bits.length + 7) / 8)).map fun k =>
    UInt8.ofNat (packBits 8 fun j => bits.getD (8 * k + j) false)

/-- `BytesToBits`: `ret[p] = (bytes[p / 8] & (1 << (p % 8))) != 0`. -/
def BytesToBits (bytes : Bytes) : List Bool :=
  (List.range (bytes.length * 8)).map fun p =>
    (bytes.getD (p / 8) 0).toNat &&& 1 <<< (p % 8) != 0

structure CPartialMerkleTree where
  nTransactions : Nat
  vBits : List Bool
  vHash : List Uint256
  fBad : Bool

/-- `CalcTreeWidth`: the number of nodes at `height`. -/
def CalcTreeWidth (nTransactions height : Nat) : Nat :=
  (nTransactions + (1 <<< height) - 1) >>> height

theorem CalcTreeWidth_eq (nTransactions height : Nat) :
    CalcTreeWidth nTransactions height = width nTransactions height := by
  rw [CalcTreeWidth, width, Nat.shiftLeft_eq, Nat.one_mul, Nat.shiftRight_eq_div_pow]

/-- `int nHeight = 0; while (CalcTreeWidth(nHeight) > 1) nHeight++;`, from `height` on. -/
def treeHeightFrom (nTransactions height : Nat) : Nat :=
  if CalcTreeWidth nTransactions height > 1 then treeHeightFrom nTransactions (height + 1)
  else height
termination_by nTransactions - height
decreasing_by
  rename_i wide
  rw [gt_iff_lt, CalcTreeWidth_eq, ← Nat.not_le, width_le_one_iff] at wide
  have : height < 2 ^ height := Nat.lt_two_pow_self
  omega

def treeHeight (nTransactions : Nat) : Nat := treeHeightFrom nTransactions 0

section Build

variable (H : Hashes) (nTransactions : Nat) (vTxid : List Uint256)

/-- `CalcHash`: the hash of the node at `pos`, `height` levels up. -/
def CalcHash : Nat → Nat → Uint256
  | 0, pos => vTxid.getD pos Uint256.zero
  | height + 1, pos =>
    let left := CalcHash height (pos * 2)
    let right :=
      if pos * 2 + 1 < CalcTreeWidth nTransactions height then CalcHash height (pos * 2 + 1) else left
    hash64 H left right

/-- The positions `TraverseAndBuild` scans below the node at `pos`, `height`
levels up: `p = pos << height` while `p < (pos+1) << height && p < nTransactions`. -/
def positionsBelow (height pos : Nat) : List Nat :=
  List.range' (pos <<< height) (min ((pos + 1) <<< height) nTransactions - (pos <<< height))

/-- `fParentOfMatch`: the node is above at least one matched txid. -/
def parentOfMatch (vMatch : List Bool) (height pos : Nat) : Bool :=
  (positionsBelow nTransactions height pos).any (vMatch.getD · false)

/-- `TraverseAndBuild`: the bits and hashes it appends to `vBits` and `vHash`.
At height 0, or with nothing matched below, it stores the node's hash and
stops. -/
def TraverseAndBuild (vMatch : List Bool) : Nat → Nat → List Bool × List Uint256
  | 0, pos => ([parentOfMatch nTransactions vMatch 0 pos], [CalcHash H nTransactions vTxid 0 pos])
  | height + 1, pos =>
    let fParentOfMatch := parentOfMatch nTransactions vMatch (height + 1) pos
    if !fParentOfMatch then ([fParentOfMatch], [CalcHash H nTransactions vTxid (height + 1) pos])
    else
      let left := TraverseAndBuild vMatch height (pos * 2)
      let right :=
        if pos * 2 + 1 < CalcTreeWidth nTransactions height then
          TraverseAndBuild vMatch height (pos * 2 + 1)
        else ([], [])
      (fParentOfMatch :: (left.1 ++ right.1), left.2 ++ right.2)

end Build

def CPartialMerkleTree.ofTxids (H : Hashes) (vTxid : List Uint256) (vMatch : List Bool) :
    CPartialMerkleTree :=
  let built := TraverseAndBuild H vTxid.length vTxid vMatch (treeHeight vTxid.length) 0
  ⟨vTxid.length, built.1, built.2, false⟩

/-- The locals and outputs `TraverseAndExtract` threads through the walk: the
two cursors, the matched txids and their positions, and the tree's `fBad`. -/
structure ExtractState where
  nBitsUsed : Nat
  nHashUsed : Nat
  vMatch : List Uint256
  vnIndex : List Nat
  fBad : Bool

section Extract

variable (H : Hashes) (nTransactions : Nat) (vBits : List Bool) (vHash : List Uint256)

/-- The branch of `TraverseAndExtract` that takes the next stored hash as the
node's, and records it as a matched txid at height 0 when its bit is set. -/
def useStoredHash (height pos : Nat) (fParentOfMatch : Bool) (s : ExtractState) :
    Uint256 × ExtractState :=
  if s.nHashUsed ≥ vHash.length then (Uint256.zero, { s with fBad := true })
  else
    let hash := vHash.getD s.nHashUsed Uint256.zero
    let s := { s with nHashUsed := s.nHashUsed + 1 }
    if height = 0 ∧ fParentOfMatch = true then
      (hash, { s with vMatch := s.vMatch ++ [hash], vnIndex := s.vnIndex ++ [pos] })
    else (hash, s)

/-- `TraverseAndExtract`: the hash of the node at `pos`, `height` levels up. -/
def TraverseAndExtract : Nat → Nat → ExtractState → Uint256 × ExtractState
  | height, pos, s =>
    if s.nBitsUsed ≥ vBits.length then (Uint256.zero, { s with fBad := true })
    else
      let fParentOfMatch := vBits.getD s.nBitsUsed false
      let s := { s with nBitsUsed := s.nBitsUsed + 1 }
      match height with
      | 0 => useStoredHash vHash 0 pos fParentOfMatch s
      | height + 1 =>
        if !fParentOfMatch then useStoredHash vHash (height + 1) pos fParentOfMatch s
        else
          let (left, s) := TraverseAndExtract height (pos * 2) s
          if pos * 2 + 1 < CalcTreeWidth nTransactions height then
            let (right, s) := TraverseAndExtract height (pos * 2 + 1) s
            -- the two branches cover different txids, so they are never equal
            (hash64 H left right, if right = left then { s with fBad := true } else s)
          else (hash64 H left left, s)

end Extract

/-- `ExtractMatches`: the merkle root, or zero for a malformed tree, with the
matched txids and their positions. It clears its `vMatch` but appends to the
caller's `vnIndex`. -/
def ExtractMatches (H : Hashes) (tree : CPartialMerkleTree) (vnIndex : List Nat) :
    Uint256 × ExtractState :=
  let cleared : ExtractState := ⟨0, 0, [], vnIndex, tree.fBad⟩
  if tree.nTransactions = 0 then (Uint256.zero, cleared)
  else if tree.nTransactions > MAX_BLOCK_WEIGHT / MIN_TRANSACTION_WEIGHT then (Uint256.zero, cleared)
  else if tree.vHash.length > tree.nTransactions then (Uint256.zero, cleared)
  else if tree.vBits.length < tree.vHash.length then (Uint256.zero, cleared)
  else
    let (hashMerkleRoot, s) := TraverseAndExtract H tree.nTransactions tree.vBits tree.vHash
      (treeHeight tree.nTransactions) 0 cleared
    if s.fBad then (Uint256.zero, s)
    -- every bit is used, but for the padding to a whole byte
    else if (s.nBitsUsed + 7) / 8 ≠ (tree.vBits.length + 7) / 8 then (Uint256.zero, s)
    else if s.nHashUsed ≠ tree.vHash.length then (Uint256.zero, s)
    else (hashMerkleRoot, s)

namespace CPartialMerkleTree

def serialize (tree : CPartialMerkleTree) : Bytes :=
  serWritedata32 (UInt32.ofNat tree.nTransactions) ++ serializeVector Uint256.serialize tree.vHash ++
    serializeBytes (BitsToBytes tree.vBits)

def unserialize : Decoder CPartialMerkleTree := do
  let nTransactions ← serReaddata32
  let vHash ← unserializeVector Uint256.unserialize
  let bytes ← unserializeBytes
  pure ⟨nTransactions.toNat, BytesToBits bytes, vHash, false⟩

end CPartialMerkleTree

theorem length_BitsToBytes (bits : List Bool) : (BitsToBytes bits).length = (bits.length + 7) / 8 := by
  rw [BitsToBytes, List.length_map, List.length_range]

theorem ne_zero_and_one_shiftLeft (x j : Nat) : (x &&& 1 <<< j != 0) = x.testBit j := by
  rw [Nat.shiftLeft_eq, Nat.one_mul]
  cases set : x.testBit j
  · simp [(and_two_pow_eq_zero_iff x j).mpr set]
  · have nonzero : x &&& 2 ^ j ≠ 0 := fun zero => by
      rw [and_two_pow_eq_zero_iff] at zero
      rw [zero] at set
      cases set
    simp [nonzero]

theorem BytesToBits_BitsToBytes (bits : List Bool) :
    BytesToBits (BitsToBytes bits) =
      bits ++ List.replicate (8 * ((bits.length + 7) / 8) - bits.length) false := by
  apply List.ext_getElem
  · rw [BytesToBits, List.length_map, List.length_range, length_BitsToBytes, List.length_append,
      List.length_replicate]
    omega
  · intro p below _
    rw [BytesToBits, List.length_map, List.length_range, length_BitsToBytes] at below
    have byte : p / 8 < (BitsToBytes bits).length := by
      rw [length_BitsToBytes]
      omega
    have packed : (BitsToBytes bits).getD (p / 8) 0 =
        UInt8.ofNat (packBits 8 fun j => bits.getD (8 * (p / 8) + j) false) := by
      rw [List.getD_eq_getElem _ _ byte]
      simp only [BitsToBytes, List.getElem_map, List.getElem_range]
    have small : packBits 8 (fun j => bits.getD (8 * (p / 8) + j) false) < 2 ^ 8 := packBits_lt _ 8
    simp only [BytesToBits, List.getElem_map, List.getElem_range]
    rw [packed, UInt8.toNat_ofNat',
      Nat.mod_eq_of_lt small, ne_zero_and_one_shiftLeft, testBit_packBits,
      decide_eq_true (Nat.mod_lt p (by decide)), Bool.true_and, Nat.div_add_mod]
    by_cases inBits : p < bits.length
    · rw [List.getElem_append_left inBits, List.getD_eq_getElem _ _ inBits]
    · rw [List.getElem_append_right (by omega), List.getElem_replicate,
        List.getD_eq_default _ _ (by omega)]

namespace CPartialMerkleTree

theorem unserialize_serialize (tree : CPartialMerkleTree) (small : tree.nTransactions < 2 ^ 32)
    (hashesFit : Fits tree.vHash) (bitsFit : Fits (BitsToBytes tree.vBits)) (rest : Bytes) :
    unserialize (tree.serialize ++ rest) =
      .ok ({ tree with vBits := BytesToBits (BitsToBytes tree.vBits), fBad := false }, rest) := by
  have count : (UInt32.ofNat tree.nTransactions).toNat = tree.nTransactions := by
    rw [UInt32.toNat_ofNat', Nat.mod_eq_of_lt small]
  rw [unserialize, serialize, List.append_assoc, List.append_assoc,
    bind_of_ok (serReaddata32_roundTrip _ _),
    bind_of_ok (unserializeVector_roundTrip _ _ _ hashesFit
      (fun blob _ => Uint256.unserialize_roundTrip blob) _),
    bind_of_ok (unserializeBytes_roundTrip _ bitsFit _), count]
  rfl

structure Encodable (tree : CPartialMerkleTree) : Prop where
  small : tree.nTransactions < 2 ^ 32
  hashes : Fits tree.vHash
  bits : Fits (BitsToBytes tree.vBits)

end CPartialMerkleTree

/-- `CMerkleBlock`: the header of the block proved against, of the kind its
chain has, and the partial tree of the block's transactions. -/
structure CMerkleBlock (Header : Type) where
  header : Header
  txn : CPartialMerkleTree

namespace CMerkleBlock

variable {Header : Type}

def serialize (serializeHeader : Header → Bytes) (block : CMerkleBlock Header) : Bytes :=
  serializeHeader block.header ++ block.txn.serialize

def unserialize (unserializeHeader : Decoder Header) : Decoder (CMerkleBlock Header) := do
  let header ← unserializeHeader
  let txn ← CPartialMerkleTree.unserialize
  pure ⟨header, txn⟩

theorem unserialize_serialize {serializeHeader : Header → Bytes} {unserializeHeader : Decoder Header}
    {block : CMerkleBlock Header} {header : Header}
    (headerRead : ∀ rest, unserializeHeader (serializeHeader block.header ++ rest) = .ok (header, rest))
    (encodable : block.txn.Encodable) (rest : Bytes) :
    unserialize unserializeHeader (block.serialize serializeHeader ++ rest) =
      .ok (⟨header, { block.txn with vBits := BytesToBits (BitsToBytes block.txn.vBits), fBad := false }⟩,
        rest) := by
  rw [unserialize, serialize, List.append_assoc, bind_of_ok (headerRead _),
    bind_of_ok (CPartialMerkleTree.unserialize_serialize _ encodable.small encodable.hashes
      encodable.bits _)]
  rfl

end CMerkleBlock

theorem CalcTreeWidth_gt_one_iff (nTransactions height : Nat) :
    CalcTreeWidth nTransactions height > 1 ↔ height < Nat.clog 2 nTransactions := by
  rw [gt_iff_lt, CalcTreeWidth_eq, ← Nat.not_le, width_le_one_iff, ← Nat.not_le,
    Nat.clog_le_iff_le_pow (by decide)]

theorem treeHeightFrom_eq (nTransactions : Nat) :
    ∀ gap height, height + gap = Nat.clog 2 nTransactions →
      treeHeightFrom nTransactions height = Nat.clog 2 nTransactions
  | 0, height, reached => by
    rw [treeHeightFrom, if_neg (by rw [CalcTreeWidth_gt_one_iff]; omega)]
    omega
  | gap + 1, height, below => by
    rw [treeHeightFrom, if_pos (by rw [CalcTreeWidth_gt_one_iff]; omega)]
    exact treeHeightFrom_eq nTransactions gap (height + 1) (by omega)

theorem treeHeight_eq (nTransactions : Nat) : treeHeight nTransactions = Nat.clog 2 nTransactions :=
  treeHeightFrom_eq nTransactions _ 0 (Nat.zero_add _)

theorem range'_split (start half count : Nat) :
    List.range' start (min (start + 2 * half) count - start) =
      List.range' start (min (start + half) count - start) ++
        List.range' (start + half) (min (start + 2 * half) count - (start + half)) := by
  by_cases full : start + half ≤ count
  · rw [show min (start + half) count - start = half by omega, List.range'_append_1]
    congr 1
    omega
  · rw [show min (start + 2 * half) count - (start + half) = 0 by omega, List.range'_zero,
      List.append_nil]
    congr 1
    omega

section Positions

variable (nTransactions : Nat)

theorem positionsBelow_eq (height pos : Nat) :
    positionsBelow nTransactions height pos =
      List.range' (pos * 2 ^ height) (min ((pos + 1) * 2 ^ height) nTransactions - pos * 2 ^ height) := by
  rw [positionsBelow, Nat.shiftLeft_eq, Nat.shiftLeft_eq]

theorem positionsBelow_succ (height pos : Nat) :
    positionsBelow nTransactions (height + 1) pos =
      positionsBelow nTransactions height (pos * 2) ++
        positionsBelow nTransactions height (pos * 2 + 1) := by
  have start : pos * 2 ^ (height + 1) = pos * 2 * 2 ^ height := by rw [Nat.pow_succ]; ring
  have stop : (pos + 1) * 2 ^ (height + 1) = pos * 2 * 2 ^ height + 2 * 2 ^ height := by
    rw [Nat.pow_succ]; ring
  have middle : (pos * 2 + 1) * 2 ^ height = pos * 2 * 2 ^ height + 2 ^ height := by ring
  have stopLeft : (pos * 2 + 1) * 2 ^ height = pos * 2 * 2 ^ height + 2 ^ height := by ring
  have stopRight : (pos * 2 + 1 + 1) * 2 ^ height = pos * 2 * 2 ^ height + 2 * 2 ^ height := by ring
  rw [positionsBelow_eq, positionsBelow_eq, positionsBelow_eq, start, stop, stopLeft, stopRight]
  exact range'_split _ _ _

theorem positionsBelow_of_not_lt {height pos : Nat} (beyond : ¬pos < width nTransactions height) :
    positionsBelow nTransactions height pos = [] := by
  rw [lt_width_iff] at beyond
  rw [positionsBelow_eq, show min ((pos + 1) * 2 ^ height) nTransactions - pos * 2 ^ height = 0 by omega,
    List.range'_zero]

theorem positionsBelow_zero {pos : Nat} (real : pos < nTransactions) :
    positionsBelow nTransactions 0 pos = [pos] := by
  rw [positionsBelow_eq, Nat.pow_zero, Nat.mul_one, Nat.mul_one,
    show min (pos + 1) nTransactions - pos = 1 by omega]
  rfl

theorem positionsBelow_root {height : Nat} (fits : nTransactions ≤ 2 ^ height) :
    positionsBelow nTransactions height 0 = List.range nTransactions := by
  rw [positionsBelow_eq, Nat.zero_mul, Nat.zero_add, Nat.one_mul, Nat.min_eq_right fits,
    Nat.sub_zero, List.range_eq_range']

theorem length_positionsBelow (height pos : Nat) :
    (positionsBelow nTransactions height pos).length =
      min ((pos + 1) * 2 ^ height) nTransactions - pos * 2 ^ height := by
  rw [positionsBelow_eq, List.length_range']

end Positions

theorem CalcHash_eq (H : Hashes) (vTxid : List Uint256) :
    ∀ height pos,
      CalcHash H vTxid.length vTxid height pos = duplicatingRoot (hash64 H) height (slice vTxid height pos)
  | 0, pos => by
    rw [CalcHash, duplicatingRoot_zero_slice]
    rfl
  | height + 1, pos => by
    simp only [CalcHash, CalcTreeWidth_eq, lt_width_iff]
    rw [duplicatingRoot_slice, nodePair, CalcHash_eq H vTxid height (pos * 2),
      CalcHash_eq H vTxid height (pos * 2 + 1), Nat.mul_comm pos 2]
    split_ifs <;> rfl

theorem CalcHash_root (H : Hashes) (vTxid : List Uint256) :
    CalcHash H vTxid.length vTxid (treeHeight vTxid.length) 0 = (ComputeMerkleRoot H vTxid).1 := by
  have whole : slice vTxid (Nat.clog 2 vTxid.length) 0 = vTxid := by
    rw [slice, Nat.zero_mul, List.drop_zero,
      List.take_of_length_le (Nat.le_pow_clog (by decide) vTxid.length)]
  rw [CalcHash_eq, treeHeight_eq, whole, ComputeMerkleRoot, root_ComputeMerkleRootLoop]

section Built

variable (nTransactions : Nat) (vMatch : List Bool)

/-- The matched positions below the node at `pos`, `height` levels up. -/
def matchedBelow (height pos : Nat) : List Nat :=
  (positionsBelow nTransactions height pos).filter (vMatch.getD · false)

theorem matchedBelow_of_not_parentOfMatch {height pos : Nat}
    (none : parentOfMatch nTransactions vMatch height pos = false) :
    matchedBelow nTransactions vMatch height pos = [] := by
  rw [parentOfMatch, List.any_eq_false] at none
  rw [matchedBelow, List.filter_eq_nil_iff]
  intro p below
  simpa using none p below

theorem matchedBelow_succ (height pos : Nat) :
    matchedBelow nTransactions vMatch (height + 1) pos =
      matchedBelow nTransactions vMatch height (pos * 2) ++
        matchedBelow nTransactions vMatch height (pos * 2 + 1) := by
  rw [matchedBelow, positionsBelow_succ, List.filter_append]
  rfl

theorem matchedBelow_of_not_lt {height pos : Nat} (beyond : ¬pos < width nTransactions height) :
    matchedBelow nTransactions vMatch height pos = [] := by
  rw [matchedBelow, positionsBelow_of_not_lt nTransactions beyond, List.filter_nil]

theorem parentOfMatch_zero {pos : Nat} (real : pos < nTransactions) :
    parentOfMatch nTransactions vMatch 0 pos = vMatch.getD pos false := by
  rw [parentOfMatch, positionsBelow_zero nTransactions real]
  simp

theorem matchedBelow_zero {pos : Nat} (real : pos < nTransactions) :
    matchedBelow nTransactions vMatch 0 pos = if vMatch.getD pos false then [pos] else [] := by
  rw [matchedBelow, positionsBelow_zero nTransactions real, List.filter_cons, List.filter_nil]

variable (H : Hashes) (vTxid : List Uint256)

theorem length_hashes_le_bits :
    ∀ height pos, (TraverseAndBuild H nTransactions vTxid vMatch height pos).2.length ≤
      (TraverseAndBuild H nTransactions vTxid vMatch height pos).1.length
  | 0, pos => by simp [TraverseAndBuild]
  | height + 1, pos => by
    have left := length_hashes_le_bits height (pos * 2)
    have right := length_hashes_le_bits height (pos * 2 + 1)
    simp only [TraverseAndBuild]
    split
    · simp
    · split <;> simp <;> omega

theorem length_hashes_le_positions :
    ∀ height pos, pos < width nTransactions height →
      (TraverseAndBuild H nTransactions vTxid vMatch height pos).2.length ≤
        (positionsBelow nTransactions height pos).length
  | 0, pos, real => by
    rw [lt_width_iff, Nat.pow_zero, Nat.mul_one] at real
    simp [TraverseAndBuild, positionsBelow_zero nTransactions real]
  | height + 1, pos, real => by
    have leftReal : pos * 2 < width nTransactions height := by
      rw [lt_width_iff] at real ⊢
      rw [Nat.pow_succ] at real
      rw [Nat.mul_assoc, Nat.mul_comm 2]
      exact real
    have left := length_hashes_le_positions height (pos * 2) leftReal
    have right := length_hashes_le_positions height (pos * 2 + 1)
    have covered := length_positionsBelow nTransactions (height + 1) pos
    rw [lt_width_iff] at real
    simp only [TraverseAndBuild, positionsBelow_succ nTransactions height pos, List.length_append]
    split
    · -- one hash for a node with at least one position
      have : (pos + 1) * 2 ^ (height + 1) = pos * 2 ^ (height + 1) + 2 ^ (height + 1) := by ring
      have one : 1 ≤ 2 ^ (height + 1) := Nat.one_le_two_pow
      rw [positionsBelow_succ] at covered
      simp only [List.length_append] at covered
      simp only [List.length_singleton]
      omega
    · split
      · next rightReal =>
        rw [CalcTreeWidth_eq] at rightReal
        have := right rightReal
        simp only [List.length_append]
        omega
      · simp only [List.length_nil, List.length_append]
        omega

theorem length_bits_lt :
    ∀ height pos, (TraverseAndBuild H nTransactions vTxid vMatch height pos).1.length < 2 ^ (height + 1)
  | 0, pos => by simp [TraverseAndBuild]
  | height + 1, pos => by
    have left := length_bits_lt height (pos * 2)
    have right := length_bits_lt height (pos * 2 + 1)
    have double : 2 ^ (height + 1 + 1) = 2 * 2 ^ (height + 1) := by rw [Nat.pow_succ]; ring
    have one : 1 ≤ 2 ^ (height + 1) := Nat.one_le_two_pow
    simp only [TraverseAndBuild]
    split
    · simp only [List.length_singleton]
      omega
    · split <;> simp only [List.length_cons, List.length_append, List.length_nil] <;> omega

end Built

section Walk

variable (H : Hashes) (nTransactions : Nat) (vBits : List Bool) (vHash : List Uint256)

theorem TraverseAndExtract_exhausted {height pos : Nat} {s : ExtractState}
    (used : vBits.length ≤ s.nBitsUsed) :
    TraverseAndExtract H nTransactions vBits vHash height pos s = (Uint256.zero, { s with fBad := true }) := by
  rw [TraverseAndExtract, if_pos used]

theorem TraverseAndExtract_zero {pos : Nat} {s : ExtractState} (unread : s.nBitsUsed < vBits.length) :
    TraverseAndExtract H nTransactions vBits vHash 0 pos s =
      useStoredHash vHash 0 pos (vBits.getD s.nBitsUsed false) { s with nBitsUsed := s.nBitsUsed + 1 } := by
  rw [TraverseAndExtract, if_neg (Nat.not_le.mpr unread)]

theorem TraverseAndExtract_stored {height pos : Nat} {s : ExtractState}
    (unread : s.nBitsUsed < vBits.length) (clear : vBits.getD s.nBitsUsed false = false) :
    TraverseAndExtract H nTransactions vBits vHash (height + 1) pos s =
      useStoredHash vHash (height + 1) pos false { s with nBitsUsed := s.nBitsUsed + 1 } := by
  rw [TraverseAndExtract, if_neg (Nat.not_le.mpr unread)]
  simp only [clear, Bool.not_false, if_true]

theorem TraverseAndExtract_descend {height pos : Nat} {s : ExtractState}
    (unread : s.nBitsUsed < vBits.length) (set : vBits.getD s.nBitsUsed false = true) :
    TraverseAndExtract H nTransactions vBits vHash (height + 1) pos s =
      let left := TraverseAndExtract H nTransactions vBits vHash height (pos * 2)
        { s with nBitsUsed := s.nBitsUsed + 1 }
      if pos * 2 + 1 < CalcTreeWidth nTransactions height then
        let right := TraverseAndExtract H nTransactions vBits vHash height (pos * 2 + 1) left.2
        (hash64 H left.1 right.1, if right.1 = left.1 then { right.2 with fBad := true } else right.2)
      else (hash64 H left.1 left.1, left.2) := by
  rw [TraverseAndExtract, if_neg (Nat.not_le.mpr unread)]
  simp only [set, Bool.not_true, Bool.false_eq_true, if_false]

theorem useStoredHash_at {hashesBefore hashesAfter : List Uint256} {hash : Uint256}
    (stored : vHash = hashesBefore ++ hash :: hashesAfter) {s : ExtractState}
    (cursor : s.nHashUsed = hashesBefore.length) (height pos : Nat) (bit : Bool) :
    useStoredHash vHash height pos bit s =
      (hash, { s with
        nHashUsed := s.nHashUsed + 1
        vMatch := if height = 0 ∧ bit = true then s.vMatch ++ [hash] else s.vMatch
        vnIndex := if height = 0 ∧ bit = true then s.vnIndex ++ [pos] else s.vnIndex }) := by
  have inRange : ¬s.nHashUsed ≥ vHash.length := by
    rw [stored, cursor]
    simp
  have read : vHash.getD s.nHashUsed Uint256.zero = hash := by
    rw [stored, cursor]
    simp
  unfold useStoredHash
  rw [if_neg inRange, read]
  split_ifs <;> rfl

end Walk

section BuiltWalk

variable (H : Hashes) (vTxid : List Uint256) (vMatch : List Bool)

theorem CalcHash_succ_of_lt {height pos : Nat}
    (right : pos * 2 + 1 < CalcTreeWidth vTxid.length height) :
    CalcHash H vTxid.length vTxid (height + 1) pos =
      hash64 H (CalcHash H vTxid.length vTxid height (pos * 2))
        (CalcHash H vTxid.length vTxid height (pos * 2 + 1)) := by
  simp only [CalcHash, right, if_true]

theorem CalcHash_succ_of_not_lt {height pos : Nat}
    (noRight : ¬pos * 2 + 1 < CalcTreeWidth vTxid.length height) :
    CalcHash H vTxid.length vTxid (height + 1) pos =
      hash64 H (CalcHash H vTxid.length vTxid height (pos * 2))
        (CalcHash H vTxid.length vTxid height (pos * 2)) := by
  simp only [CalcHash, noRight, if_false]

theorem lt_width_double {count height pos : Nat} (real : pos < width count (height + 1)) :
    pos * 2 < width count height := by
  rw [lt_width_iff] at real ⊢
  rw [Nat.pow_succ] at real
  rw [Nat.mul_assoc, Nat.mul_comm 2]
  exact real

theorem TraverseAndExtract_TraverseAndBuild
    (distinct : ∀ height a b, a * 2 ^ height < vTxid.length → b * 2 ^ height < vTxid.length → a ≠ b →
      CalcHash H vTxid.length vTxid height a ≠ CalcHash H vTxid.length vTxid height b)
    {vBits : List Bool} {vHash : List Uint256} :
    ∀ height pos (s : ExtractState) (before after : List Bool) (hashesBefore hashesAfter : List Uint256),
      pos < width vTxid.length height →
      vBits = before ++ (TraverseAndBuild H vTxid.length vTxid vMatch height pos).1 ++ after →
      vHash = hashesBefore ++ (TraverseAndBuild H vTxid.length vTxid vMatch height pos).2 ++ hashesAfter →
      s.nBitsUsed = before.length → s.nHashUsed = hashesBefore.length →
      TraverseAndExtract H vTxid.length vBits vHash height pos s =
        (CalcHash H vTxid.length vTxid height pos,
          { nBitsUsed := s.nBitsUsed + (TraverseAndBuild H vTxid.length vTxid vMatch height pos).1.length
            nHashUsed := s.nHashUsed + (TraverseAndBuild H vTxid.length vTxid vMatch height pos).2.length
            vMatch := s.vMatch ++
              (matchedBelow vTxid.length vMatch height pos).map (vTxid.getD · Uint256.zero)
            vnIndex := s.vnIndex ++ matchedBelow vTxid.length vMatch height pos
            fBad := s.fBad })
  | 0, pos, ⟨bitsUsed, hashUsed, matched, indices, bad⟩, before, after, hashesBefore, hashesAfter,
      real, bits, hashes, bitCursor, hashCursor => by
    -- a leaf: its bit is its match flag, and its txid is stored
    dsimp only at bitCursor hashCursor
    rw [lt_width_iff, Nat.pow_zero, Nat.mul_one] at real
    simp only [TraverseAndBuild, parentOfMatch_zero _ _ real] at bits hashes ⊢
    have unread : bitsUsed < vBits.length := by
      rw [bits, bitCursor]
      simp
    have read : vBits.getD bitsUsed false = vMatch.getD pos false := by
      rw [bits, bitCursor]
      simp
    have stored : vHash = hashesBefore ++ CalcHash H vTxid.length vTxid 0 pos :: hashesAfter := by
      rw [hashes, List.append_assoc, List.singleton_append]
    rw [TraverseAndExtract_zero H _ _ _ unread, read, useStoredHash_at vHash stored,
      matchedBelow_zero _ _ real]
    · cases vMatch.getD pos false <;> simp [CalcHash]
    · exact hashCursor
  | height + 1, pos, ⟨bitsUsed, hashUsed, matched, indices, bad⟩, before, after, hashesBefore,
      hashesAfter, real, bits, hashes, bitCursor, hashCursor => by
    dsimp only at bitCursor hashCursor
    cases parent : parentOfMatch vTxid.length vMatch (height + 1) pos with
    | false =>
      -- nothing matched below: the node's own hash is stored
      simp only [TraverseAndBuild, parent, Bool.not_false, if_true] at bits hashes ⊢
      have unread : bitsUsed < vBits.length := by
        rw [bits, bitCursor]
        simp
      have clear : vBits.getD bitsUsed false = false := by
        rw [bits, bitCursor]
        simp
      have stored : vHash = hashesBefore ++ CalcHash H vTxid.length vTxid (height + 1) pos :: hashesAfter := by
        rw [hashes, List.append_assoc, List.singleton_append]
      rw [TraverseAndExtract_stored H _ _ _ unread clear, useStoredHash_at vHash stored,
        matchedBelow_of_not_parentOfMatch _ _ parent]
      · simp
      · exact hashCursor
    | true =>
      -- the walk descends into the left child, then into the right one if there is one
      simp only [TraverseAndBuild, parent, Bool.not_true, Bool.false_eq_true, if_false] at bits hashes ⊢
      have unread : bitsUsed < vBits.length := by
        rw [bits, bitCursor]
        simp
      have set : vBits.getD bitsUsed false = true := by
        rw [bits, bitCursor]
        simp
      rw [TraverseAndExtract_descend H _ _ _ unread set]
      by_cases right : pos * 2 + 1 < CalcTreeWidth vTxid.length height
      · simp only [right, if_true] at bits hashes ⊢
        have left := TraverseAndExtract_TraverseAndBuild distinct height (pos * 2)
          ⟨bitsUsed + 1, hashUsed, matched, indices, bad⟩ (before ++ [true])
          ((TraverseAndBuild H vTxid.length vTxid vMatch height (pos * 2 + 1)).1 ++ after)
          hashesBefore ((TraverseAndBuild H vTxid.length vTxid vMatch height (pos * 2 + 1)).2 ++ hashesAfter)
          (lt_width_double real) (bits.trans (by simp)) (hashes.trans (by simp)) (by simp [bitCursor])
          hashCursor
        rw [left]
        have rightReal : pos * 2 + 1 < width vTxid.length height := by rwa [CalcTreeWidth_eq] at right
        rw [TraverseAndExtract_TraverseAndBuild distinct height (pos * 2 + 1) _
          (before ++ [true] ++ (TraverseAndBuild H vTxid.length vTxid vMatch height (pos * 2)).1) after
          (hashesBefore ++ (TraverseAndBuild H vTxid.length vTxid vMatch height (pos * 2)).2) hashesAfter
          rightReal (bits.trans (by simp)) (hashes.trans (by simp)) (by simp [bitCursor]; omega)
          (by simp [hashCursor])]
        have differ := distinct height (pos * 2 + 1) (pos * 2) (lt_width_iff.mp rightReal)
          (lt_width_iff.mp (lt_width_double real)) (by omega)
        rw [if_neg differ, CalcHash_succ_of_lt H vTxid right, matchedBelow_succ]
        simp only [List.length_cons, List.length_append, List.map_append, List.append_assoc,
          Prod.mk.injEq, ExtractState.mk.injEq, true_and, and_true]
        omega
      · simp only [right, if_false, List.append_nil] at bits hashes ⊢
        have left := TraverseAndExtract_TraverseAndBuild distinct height (pos * 2)
          ⟨bitsUsed + 1, hashUsed, matched, indices, bad⟩ (before ++ [true]) after hashesBefore hashesAfter
          (lt_width_double real) (bits.trans (by simp)) (hashes.trans (by simp)) (by simp [bitCursor])
          hashCursor
        have noRight : ¬pos * 2 + 1 < width vTxid.length height := by rwa [CalcTreeWidth_eq] at right
        rw [left, CalcHash_succ_of_not_lt H vTxid right, matchedBelow_succ,
          matchedBelow_of_not_lt _ _ noRight]
        simp only [List.length_cons, List.append_nil, Prod.mk.injEq, ExtractState.mk.injEq, true_and,
          and_true]
        omega

end BuiltWalk

section AnyWalk

variable (H : Hashes) (nTransactions : Nat) (vBits : List Bool) (vHash : List Uint256)

theorem useStoredHash_fBad {height pos : Nat} {bit : Bool} {s : ExtractState} (bad : s.fBad = true) :
    (useStoredHash vHash height pos bit s).2.fBad = true := by
  unfold useStoredHash
  split_ifs <;> simp [bad]

theorem TraverseAndExtract_fBad :
    ∀ height pos (s : ExtractState), s.fBad = true →
      (TraverseAndExtract H nTransactions vBits vHash height pos s).2.fBad = true
  | height, pos, s, bad => by
    by_cases used : vBits.length ≤ s.nBitsUsed
    · rw [TraverseAndExtract_exhausted H _ _ _ used]
    have unread : s.nBitsUsed < vBits.length := by omega
    match height with
    | 0 =>
      rw [TraverseAndExtract_zero H _ _ _ unread]
      exact useStoredHash_fBad vHash bad
    | height + 1 =>
      cases bit : vBits.getD s.nBitsUsed false with
      | false =>
        rw [TraverseAndExtract_stored H _ _ _ unread bit]
        exact useStoredHash_fBad vHash bad
      | true =>
        rw [TraverseAndExtract_descend H _ _ _ unread bit]
        have left := TraverseAndExtract_fBad height (pos * 2) { s with nBitsUsed := s.nBitsUsed + 1 } bad
        dsimp only
        split
        · have right := TraverseAndExtract_fBad height (pos * 2 + 1) _ left
          split <;> simp [right]
        · exact left

theorem useStoredHash_sound {height pos : Nat} {bit : Bool} {s : ExtractState}
    (ok : (useStoredHash vHash height pos bit s).2.fBad = false) :
    ∃ found : List (Uint256 × Nat),
      (useStoredHash vHash height pos bit s).2.vMatch = s.vMatch ++ found.map Prod.fst ∧
      (useStoredHash vHash height pos bit s).2.vnIndex = s.vnIndex ++ found.map Prod.snd ∧
      ∀ entry ∈ found, height = 0 ∧ entry = ((useStoredHash vHash height pos bit s).1, pos) := by
  by_cases overflow : vHash.length ≤ s.nHashUsed
  · simp [useStoredHash, overflow] at ok
  have inRange : s.nHashUsed < vHash.length := by omega
  have stored : vHash = vHash.take s.nHashUsed ++
      vHash.getD s.nHashUsed Uint256.zero :: vHash.drop (s.nHashUsed + 1) := by
    rw [List.getD_eq_getElem _ _ inRange, List.getElem_cons_drop, List.take_append_drop]
  rw [useStoredHash_at vHash stored (by rw [List.length_take]; omega)]
  by_cases leaf : height = 0 ∧ bit = true
  · exact ⟨[(vHash.getD s.nHashUsed Uint256.zero, pos)], by simp [leaf], by simp [leaf],
      by simp [leaf.1]⟩
  · exact ⟨[], by simp [leaf], by simp [leaf], by simp⟩

theorem branchFrom_left {count height pos j : Nat} {leaf left : Uint256} {siblings : List Uint256}
    (right : Uint256) (below : j / 2 ^ height = pos * 2) (reached : left = branchFrom (hash64 H) count 0 j leaf siblings)
    (length : siblings.length = height) :
    (if pos * 2 + 1 < width count height then hash64 H left right else hash64 H left left) =
      branchFrom (hash64 H) count 0 j leaf (siblings ++ [right]) := by
  rw [branchFrom_append_singleton, Nat.zero_add, length, below, ← reached, stepPair,
    if_pos (show pos * 2 % 2 = 0 by omega)]
  split_ifs <;> rfl

theorem branchFrom_right {count height pos j : Nat} {leaf left right : Uint256} {siblings : List Uint256}
    (below : j / 2 ^ height = pos * 2 + 1) (reached : right = branchFrom (hash64 H) count 0 j leaf siblings)
    (length : siblings.length = height) :
    hash64 H left right = branchFrom (hash64 H) count 0 j leaf (siblings ++ [left]) := by
  rw [branchFrom_append_singleton, Nat.zero_add, length, below, ← reached, stepPair,
    if_neg (show ¬(pos * 2 + 1) % 2 = 0 by omega)]

theorem div_two_pow_succ {j height pos : Nat} (below : j / 2 ^ height = pos * 2 ∨ j / 2 ^ height = pos * 2 + 1) :
    j / 2 ^ (height + 1) = pos := by
  rw [Nat.pow_succ, ← Nat.div_div_eq_div_mul]
  omega

theorem TraverseAndExtract_sound :
    ∀ height pos (s : ExtractState), pos < width nTransactions height →
      (TraverseAndExtract H nTransactions vBits vHash height pos s).2.fBad = false →
      ∃ found : List (Uint256 × Nat),
        (TraverseAndExtract H nTransactions vBits vHash height pos s).2.vMatch =
          s.vMatch ++ found.map Prod.fst ∧
        (TraverseAndExtract H nTransactions vBits vHash height pos s).2.vnIndex =
          s.vnIndex ++ found.map Prod.snd ∧
        ∀ entry ∈ found, entry.2 < nTransactions ∧ entry.2 / 2 ^ height = pos ∧
          ∃ siblings : List Uint256, siblings.length = height ∧
            (TraverseAndExtract H nTransactions vBits vHash height pos s).1 =
              branchFrom (hash64 H) nTransactions 0 entry.2 entry.1 siblings
  | height, pos, s, real, ok => by
    by_cases used : vBits.length ≤ s.nBitsUsed
    · rw [TraverseAndExtract_exhausted H _ _ _ used] at ok
      cases ok
    have unread : s.nBitsUsed < vBits.length := by omega
    match height with
    | 0 =>
      -- a leaf: the branch has no siblings
      rw [lt_width_iff, Nat.pow_zero, Nat.mul_one] at real
      rw [TraverseAndExtract_zero H _ _ _ unread] at ok ⊢
      rcases useStoredHash_sound vHash ok with ⟨found, matched, indices, each⟩
      refine ⟨found, matched, indices, fun entry member => ?_⟩
      obtain ⟨-, rfl⟩ := each entry member
      exact ⟨real, by simp, [], rfl, rfl⟩
    | height + 1 =>
      cases bit : vBits.getD s.nBitsUsed false with
      | false =>
        -- a stored inner node records nothing
        rw [TraverseAndExtract_stored H _ _ _ unread bit] at ok ⊢
        rcases useStoredHash_sound vHash ok with ⟨found, matched, indices, each⟩
        refine ⟨found, matched, indices, fun entry member => ?_⟩
        cases (each entry member).1
      | true =>
        rw [TraverseAndExtract_descend H _ _ _ unread bit] at ok ⊢
        dsimp only at ok ⊢
        have leftReal := lt_width_double real
        by_cases right : pos * 2 + 1 < CalcTreeWidth nTransactions height
        · rw [if_pos right] at ok ⊢
          have rightReal : pos * 2 + 1 < width nTransactions height := by rwa [CalcTreeWidth_eq] at right
          set s₁ := { s with nBitsUsed := s.nBitsUsed + 1 }
          set left := TraverseAndExtract H nTransactions vBits vHash height (pos * 2) s₁
          set rightNode := TraverseAndExtract H nTransactions vBits vHash height (pos * 2 + 1) left.2
          -- the final state is the right child's, unless the children are equal
          have rightOk : rightNode.2.fBad = false := by
            split at ok
            · cases ok
            · exact ok
          have leftOk : left.2.fBad = false := by
            cases leftBad : left.2.fBad
            · rfl
            · have := TraverseAndExtract_fBad H nTransactions vBits vHash height (pos * 2 + 1) left.2 leftBad
              rw [rightOk] at this
              cases this
          have same : (if rightNode.1 = left.1 then { rightNode.2 with fBad := true } else rightNode.2) =
              rightNode.2 := by
            split at ok
            · cases ok
            · next differ => rw [if_neg differ]
          rw [same]
          rcases TraverseAndExtract_sound height (pos * 2) s₁ leftReal leftOk with
            ⟨foundLeft, matchedLeft, indicesLeft, eachLeft⟩
          rcases TraverseAndExtract_sound height (pos * 2 + 1) left.2 rightReal rightOk with
            ⟨foundRight, matchedRight, indicesRight, eachRight⟩
          refine ⟨foundLeft ++ foundRight, ?_, ?_, fun entry member => ?_⟩
          · rw [matchedRight, matchedLeft, List.map_append, List.append_assoc]
          · rw [indicesRight, indicesLeft, List.map_append, List.append_assoc]
          · rcases List.mem_append.mp member with inLeft | inRight
            · obtain ⟨inRange, below, siblings, length, reached⟩ := eachLeft entry inLeft
              refine ⟨inRange, div_two_pow_succ (.inl below), siblings ++ [rightNode.1],
                by rw [List.length_append, length, List.length_singleton], ?_⟩
              have step := branchFrom_left H rightNode.1 below reached length
              rw [if_pos rightReal] at step
              exact step
            · obtain ⟨inRange, below, siblings, length, reached⟩ := eachRight entry inRight
              exact ⟨inRange, div_two_pow_succ (.inr below), siblings ++ [left.1],
                by rw [List.length_append, length, List.length_singleton],
                branchFrom_right H below reached length⟩
        · rw [if_neg right] at ok ⊢
          have noRight : ¬pos * 2 + 1 < width nTransactions height := by rwa [CalcTreeWidth_eq] at right
          rcases TraverseAndExtract_sound height (pos * 2) _ leftReal ok with
            ⟨found, matched, indices, each⟩
          refine ⟨found, matched, indices, fun entry member => ?_⟩
          obtain ⟨inRange, below, siblings, length, reached⟩ := each entry member
          refine ⟨inRange, div_two_pow_succ (.inl below), siblings ++ [Uint256.zero],
            by rw [List.length_append, length, List.length_singleton], ?_⟩
          have step := branchFrom_left H Uint256.zero below reached length
          rw [if_neg noRight] at step
          exact step

end AnyWalk

section Extract

variable (H : Hashes)

theorem MAX_TRANSACTIONS_eq : MAX_BLOCK_WEIGHT / MIN_TRANSACTION_WEIGHT = 16666 := rfl

theorem CalcHash_ne {vTxid : List Uint256} (nodup : vTxid.Nodup)
    (noCollision : ¬TreeCollision (hash64 H) vTxid) (height : Nat) {a b : Nat}
    (realA : a * 2 ^ height < vTxid.length) (realB : b * 2 ^ height < vTxid.length) (differ : a ≠ b) :
    CalcHash H vTxid.length vTxid height a ≠ CalcHash H vTxid.length vTxid height b := by
  rw [CalcHash_eq, CalcHash_eq]
  exact duplicatingRoot_slice_ne (hash64 H) nodup noCollision height realA realB differ

theorem le_two_pow_treeHeight (n : Nat) : n ≤ 2 ^ treeHeight n := by
  rw [treeHeight_eq]
  exact Nat.le_pow_clog (by decide) n

theorem zero_lt_width_treeHeight {n : Nat} (positive : 0 < n) : 0 < width n (treeHeight n) := by
  rw [lt_width_iff, Nat.zero_mul]
  exact positive

theorem length_hashes_le_count {vTxid : List Uint256} (vMatch : List Bool) (nonempty : vTxid ≠ []) :
    (TraverseAndBuild H vTxid.length vTxid vMatch (treeHeight vTxid.length) 0).2.length ≤
      vTxid.length := by
  have root := zero_lt_width_treeHeight (List.length_pos_iff.mpr nonempty)
  have covered := length_hashes_le_positions vTxid.length vMatch H vTxid _ 0 root
  rwa [positionsBelow_root _ (le_two_pow_treeHeight _), List.length_range] at covered

theorem BitsToBytes_fits {vTxid : List Uint256} (vMatch : List Bool)
    (small : vTxid.length ≤ MAX_BLOCK_WEIGHT / MIN_TRANSACTION_WEIGHT) :
    Fits (BitsToBytes (TraverseAndBuild H vTxid.length vTxid vMatch (treeHeight vTxid.length) 0).1) := by
  have low : treeHeight vTxid.length ≤ 15 := by
    rw [treeHeight_eq]
    exact Nat.clog_le_of_le_pow (by rw [MAX_TRANSACTIONS_eq] at small; omega)
  have bits := length_bits_lt vTxid.length vMatch H vTxid (treeHeight vTxid.length) 0
  have levels : 2 ^ (treeHeight vTxid.length + 1) ≤ 2 ^ 16 := Nat.pow_le_pow_right (by decide) (by omega)
  rw [Fits, length_BitsToBytes, MAX_SIZE]
  omega

/-- The four checks `ExtractMatches` makes before it walks. -/
structure Walkable (tree : CPartialMerkleTree) : Prop where
  nonempty : tree.nTransactions ≠ 0
  small : tree.nTransactions ≤ MAX_BLOCK_WEIGHT / MIN_TRANSACTION_WEIGHT
  hashes : tree.vHash.length ≤ tree.nTransactions
  bits : tree.vHash.length ≤ tree.vBits.length

theorem ExtractMatches_of_not_walkable {tree : CPartialMerkleTree} (refused : ¬Walkable tree)
    (vnIndex : List Nat) :
    ExtractMatches H tree vnIndex = (Uint256.zero, ⟨0, 0, [], vnIndex, tree.fBad⟩) := by
  rw [ExtractMatches]
  split_ifs with empty large tooManyHashes tooFewBits
  any_goals rfl
  exact absurd ⟨empty, by omega, by omega, by omega⟩ refused

theorem ExtractMatches_of_walkable {tree : CPartialMerkleTree} (walkable : Walkable tree)
    (vnIndex : List Nat) :
    ExtractMatches H tree vnIndex =
      let walked := TraverseAndExtract H tree.nTransactions tree.vBits tree.vHash
        (treeHeight tree.nTransactions) 0 ⟨0, 0, [], vnIndex, tree.fBad⟩
      if walked.2.fBad then (Uint256.zero, walked.2)
      else if (walked.2.nBitsUsed + 7) / 8 ≠ (tree.vBits.length + 7) / 8 then (Uint256.zero, walked.2)
      else if walked.2.nHashUsed ≠ tree.vHash.length then (Uint256.zero, walked.2)
      else (walked.1, walked.2) := by
  have := walkable.small
  have := walkable.hashes
  have := walkable.bits
  rw [ExtractMatches, if_neg walkable.nonempty, if_neg (by omega), if_neg (by omega), if_neg (by omega)]

theorem ExtractMatches_ofTxids (vTxid : List Uint256) (vMatch : List Bool) (nonempty : vTxid ≠ [])
    (small : vTxid.length ≤ MAX_BLOCK_WEIGHT / MIN_TRANSACTION_WEIGHT)
    (distinct : ∀ height a b, a * 2 ^ height < vTxid.length → b * 2 ^ height < vTxid.length → a ≠ b →
      CalcHash H vTxid.length vTxid height a ≠ CalcHash H vTxid.length vTxid height b) :
    let built := TraverseAndBuild H vTxid.length vTxid vMatch (treeHeight vTxid.length) 0
    ExtractMatches H ⟨vTxid.length, BytesToBits (BitsToBytes built.1), built.2, false⟩ [] =
      (CalcHash H vTxid.length vTxid (treeHeight vTxid.length) 0,
        { nBitsUsed := built.1.length
          nHashUsed := built.2.length
          vMatch := ((List.range vTxid.length).filter (vMatch.getD · false)).map
            (vTxid.getD · Uint256.zero)
          vnIndex := (List.range vTxid.length).filter (vMatch.getD · false)
          fBad := false }) := by
  intro built
  have positive : 0 < vTxid.length := List.length_pos_iff.mpr nonempty
  have fits := le_two_pow_treeHeight vTxid.length
  have root := zero_lt_width_treeHeight positive
  have hashesFit : built.2.length ≤ vTxid.length := length_hashes_le_count H vMatch nonempty
  have bitsCover : built.2.length ≤ built.1.length :=
    length_hashes_le_bits vTxid.length vMatch H vTxid _ 0
  have padded : BytesToBits (BitsToBytes built.1) =
      [] ++ built.1 ++ List.replicate (8 * ((built.1.length + 7) / 8) - built.1.length) false := by
    rw [BytesToBits_BitsToBytes, List.nil_append]
  have paddedLength : (BytesToBits (BitsToBytes built.1)).length =
      8 * ((built.1.length + 7) / 8) := by
    rw [padded, List.nil_append, List.length_append, List.length_replicate]
    omega
  have walked : TraverseAndExtract H vTxid.length (BytesToBits (BitsToBytes built.1)) built.2
      (treeHeight vTxid.length) 0 ⟨0, 0, [], [], false⟩ =
      (CalcHash H vTxid.length vTxid (treeHeight vTxid.length) 0,
        ⟨0 + built.1.length, 0 + built.2.length,
          [] ++ (matchedBelow vTxid.length vMatch (treeHeight vTxid.length) 0).map (vTxid.getD · Uint256.zero),
          [] ++ matchedBelow vTxid.length vMatch (treeHeight vTxid.length) 0, false⟩) :=
    TraverseAndExtract_TraverseAndBuild H vTxid vMatch distinct (treeHeight vTxid.length) 0
      ⟨0, 0, [], [], false⟩ [] _ [] [] root padded (show built.2 = [] ++ built.2 ++ [] by simp) rfl rfl
  clear_value built
  have walkable : Walkable ⟨vTxid.length, BytesToBits (BitsToBytes built.1), built.2, false⟩ :=
    ⟨by dsimp only; omega, small, hashesFit, by dsimp only; omega⟩
  rw [ExtractMatches_of_walkable H walkable]
  dsimp only
  simp only [walked, Nat.zero_add, List.nil_append, matchedBelow, positionsBelow_root _ fits,
    paddedLength, Bool.false_eq_true, if_false]
  rw [if_neg (by omega), if_neg (by omega)]

theorem ExtractMatches_sound (tree : CPartialMerkleTree) {x : Uint256} {i : Nat}
    (nonzero : (ExtractMatches H tree []).1 ≠ Uint256.zero)
    (reported : (x, i) ∈ (ExtractMatches H tree []).2.vMatch.zip (ExtractMatches H tree []).2.vnIndex) :
    i < tree.nTransactions ∧ ∃ siblings : List Uint256, siblings.length = treeHeight tree.nTransactions ∧
      (ExtractMatches H tree []).1 = branchFrom (hash64 H) tree.nTransactions 0 i x siblings := by
  by_cases walkable : Walkable tree
  swap
  · rw [ExtractMatches_of_not_walkable H walkable] at nonzero
    exact absurd rfl nonzero
  rw [ExtractMatches_of_walkable H walkable] at nonzero reported ⊢
  dsimp only at nonzero reported ⊢
  split_ifs at nonzero reported ⊢ with bad unused unusedHashes
  any_goals exact absurd rfl nonzero
  -- every check passed: the root is the walk's
  have root := zero_lt_width_treeHeight (Nat.pos_of_ne_zero walkable.nonempty)
  rcases TraverseAndExtract_sound H tree.nTransactions tree.vBits tree.vHash _ 0 _ root
      (by simpa using bad) with ⟨found, matched, indices, each⟩
  rw [matched, indices, List.nil_append, List.nil_append, ← List.unzip_fst, ← List.unzip_snd,
    List.zip_unzip] at reported
  obtain ⟨inRange, -, siblings, length, reached⟩ := each (x, i) reported
  exact ⟨inRange, siblings, length, reached⟩

/-- A partial merkle tree built from distinct txids survives the wire, and
`ExtractMatches` reads back the merkle root and exactly the matched txids
with their positions; and a match reported on any tree under a nonzero root
is the leaf at its position of every block with that root, unless two
pairs hashed on its branch collide. -/
theorem CPartialMerkleTree_roundTrip :
    (∀ (vTxid : List Uint256) (vMatch : List Bool), vTxid ≠ [] → vTxid.Nodup →
      vTxid.length ≤ MAX_BLOCK_WEIGHT / MIN_TRANSACTION_WEIGHT → ¬TreeCollision (hash64 H) vTxid →
      ∃ tree, CPartialMerkleTree.unserialize (CPartialMerkleTree.ofTxids H vTxid vMatch).serialize =
          .ok (tree, []) ∧
        (ExtractMatches H tree []).1 = (ComputeMerkleRoot H vTxid).1 ∧
        (ExtractMatches H tree []).2.fBad = false ∧
        (ExtractMatches H tree []).2.vMatch =
          ((List.range vTxid.length).filter (vMatch.getD · false)).map (vTxid.getD · Uint256.zero) ∧
        (ExtractMatches H tree []).2.vnIndex = (List.range vTxid.length).filter (vMatch.getD · false)) ∧
    ∀ (tree : CPartialMerkleTree) (x : Uint256) (i : Nat), (ExtractMatches H tree []).1 ≠ Uint256.zero →
      (x, i) ∈ (ExtractMatches H tree []).2.vMatch.zip (ExtractMatches H tree []).2.vnIndex →
      i < tree.nTransactions ∧ ∃ siblings : List Uint256, siblings.length = treeHeight tree.nTransactions ∧
        (ExtractMatches H tree []).1 = branchFrom (hash64 H) tree.nTransactions 0 i x siblings ∧
        ∀ leaves : List Uint256, leaves.length = tree.nTransactions →
          (ComputeMerkleRoot H leaves).1 = (ExtractMatches H tree []).1 →
          x = leaves.getD i Uint256.zero ∨ BranchCollision (hash64 H) leaves i x siblings := by
  constructor
  · intro vTxid vMatch nonempty nodup small noCollision
    have count : vTxid.length < 2 ^ 32 := by
      rw [MAX_TRANSACTIONS_eq] at small
      omega
    have hashesFit : Fits (TraverseAndBuild H vTxid.length vTxid vMatch (treeHeight vTxid.length) 0).2 :=
      (length_hashes_le_count H vMatch nonempty).trans (by rw [MAX_TRANSACTIONS_eq] at small; simp [MAX_SIZE]; omega)
    have decoded := CPartialMerkleTree.unserialize_serialize (CPartialMerkleTree.ofTxids H vTxid vMatch)
      count hashesFit (BitsToBytes_fits H vMatch small) []
    rw [List.append_nil] at decoded
    have extracted := ExtractMatches_ofTxids H vTxid vMatch nonempty small (CalcHash_ne H nodup noCollision)
    refine ⟨_, decoded, ?_⟩
    dsimp only [CPartialMerkleTree.ofTxids] at extracted ⊢
    rw [extracted]
    exact ⟨CalcHash_root H vTxid, rfl, rfl, rfl⟩
  · intro tree x i nonzero reported
    obtain ⟨inRange, siblings, length, reached⟩ := ExtractMatches_sound H tree nonzero reported
    refine ⟨inRange, siblings, length, reached, fun leaves count rooted => ?_⟩
    -- the branch lands where the whole tree of those leaves does: at slice zero of the top level
    have top : i / 2 ^ siblings.length = 0 :=
      Nat.div_eq_of_lt (by rw [length, ← count]; exact Nat.lt_of_lt_of_le (count ▸ inRange) (le_two_pow_treeHeight _))
    refine eq_or_branchCollision (hash64 H) leaves x (count ▸ inRange) siblings ?_
    calc branchFrom (hash64 H) leaves.length 0 i x siblings
        = (ExtractMatches H tree []).1 := by rw [count, reached]
      _ = CalcHash H leaves.length leaves (treeHeight leaves.length) 0 := by rw [← rooted, CalcHash_root]
      _ = _ := by rw [CalcHash_eq, top, length, count]

end Extract

end Elements
