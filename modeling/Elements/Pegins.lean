import Elements.Control.Guard
import Elements.MerkleBlock
import Elements.Primitives.Bitcoin
import Elements.Primitives.BlockFormat

/-! `pegins.cpp`: the witness of a peg-in input. Its six stack items are the
claimed amount, the asset, the parent chain's genesis hash, the claim script,
the parent transaction without its witness and a merkle block proving that
transaction, each written by its own stream.

The parent chain is Bitcoin-like when `ParentChainHasPow()` and another
Elements chain otherwise, and the transaction and the merkle block are of
that chain's kind. `DecomposePeginWitness` guards the stack size before it
reads; reading an item the stack does not have is undefined behaviour in the
source and an error of its own here. -/

namespace Elements

open Wire Wire.Decoder

inductive ParentTransaction
  | bitcoin (tx : Sidechain.Bitcoin.CMutableTransaction)
  | elements (tx : CMutableTransaction)

inductive ParentMerkleBlock
  | bitcoin (block : CMerkleBlock Sidechain.Bitcoin.CBlockHeader)
  | elements (block : CMerkleBlock CBlockHeader)

/-- What `DecomposePeginWitness` reads from the chain: `ParentChainHasPow()`
and the globals the Elements header encoding reads. -/
structure PeginParams where
  ParentChainHasPow : Bool
  g_con_blockheightinheader : Bool
  g_signed_blocks : Bool

/-- The header settings of a stream `SER_NETWORK` with
`PROTOCOL_VERSION | SERIALIZE_TRANSACTION_NO_WITNESS`. -/
def noWitnessContext (g_con_blockheightinheader g_signed_blocks : Bool) : HeaderContext :=
  ⟨g_con_blockheightinheader, g_signed_blocks, false, false⟩

/-- `CreatePeginWitnessInner`: the six items, the transaction and the merkle
block written by the writers of their kind. -/
def CreatePeginWitnessInner {T M : Type} (serializeTx : T → Bytes) (serializeMerkleBlock : M → Bytes)
    (value : CAmount) (asset : CAsset) (genesis_hash : Uint256) (claim_script : CScript) (tx_ref : T)
    (merkle_block : M) : CScriptWitness :=
  ⟨[serializeInt64 value, asset.id.data, genesis_hash.data, claim_script, serializeTx tx_ref,
    serializeMerkleBlock merkle_block]⟩

/-- `CreatePeginWitness` for an Elements parent chain. -/
def CreatePeginWitness (g_con_blockheightinheader g_signed_blocks : Bool) (value : CAmount)
    (asset : CAsset) (genesis_hash : Uint256) (claim_script : CScript) (tx_ref : CMutableTransaction)
    (merkle_block : CMerkleBlock CBlockHeader) : CScriptWitness :=
  CreatePeginWitnessInner (SerializeTransaction false)
    (CMerkleBlock.serialize (CBlockHeader.serialize (noWitnessContext g_con_blockheightinheader g_signed_blocks)))
    value asset genesis_hash claim_script tx_ref merkle_block

/-- `CreatePeginWitness` for a Bitcoin parent chain. -/
def Sidechain.Bitcoin.CreatePeginWitness (value : CAmount) (asset : CAsset) (genesis_hash : Uint256)
    (claim_script : CScript) (tx_ref : CMutableTransaction) (merkle_block : CMerkleBlock CBlockHeader) :
    CScriptWitness :=
  CreatePeginWitnessInner (SerializeTransaction false) (CMerkleBlock.serialize CBlockHeader.serialize)
    value asset genesis_hash claim_script tx_ref merkle_block

/-- How `DecomposePeginWitness` ends when it does not return true: it returns
false, reads past the end of the stack, fails the size assertion of
`uint256(vch)`, or a stream throws. -/
inductive PeginWitnessError
  | returnsFalse
  | outOfRange (index : Nat)
  | sizeAssertion
  | stream (message : String)
  deriving DecidableEq

/-- What `DecomposePeginWitness` sets when it returns true. -/
structure DecomposedPegin where
  value : CAmount
  asset : CAsset
  genesis_hash : Uint256
  claim_script : CScript
  tx : ParentTransaction
  merkle_block : ParentMerkleBlock

def stackItem (stack : List Bytes) (index : Nat) : Except PeginWitnessError Bytes :=
  match stack[index]? with
  | some item => .ok item
  | none => .error (.outOfRange index)

/-- `uint256(vch)`, which asserts that `vch` holds 32 bytes. -/
def uint256Of (vch : Bytes) : Except PeginWitnessError Uint256 :=
  if size : vch.length = 32 then .ok ⟨vch, size⟩ else .error .sizeAssertion

/-- `CDataStream stream(item, ...); stream >> x;`: bytes left unread are ignored. -/
def readItem {α : Type} (read : Decoder α) (item : Bytes) : Except PeginWitnessError α :=
  match read item with
  | .ok (x, _) => .ok x
  | .error message => .error (.stream message)

def DecomposePeginWitness (params : PeginParams) (witness : CScriptWitness) :
    Except PeginWitnessError DecomposedPegin := do
  let stack := witness.stack
  if stack.length < 5 then throw .returnsFalse
  let value ← readItem unserializeInt64 (← stackItem stack 0)
  let asset : CAsset := ⟨← uint256Of (← stackItem stack 1)⟩
  let genesis_hash ← uint256Of (← stackItem stack 2)
  let claim_script ← stackItem stack 3
  let txData ← stackItem stack 4
  let tx ← if params.ParentChainHasPow then
      ParentTransaction.bitcoin <$> readItem (Sidechain.Bitcoin.UnserializeTransaction true) txData
    else ParentTransaction.elements <$> readItem UnserializeTransaction txData
  let proofData ← stackItem stack 5
  let merkle_block ← if params.ParentChainHasPow then
      ParentMerkleBlock.bitcoin <$>
        readItem (CMerkleBlock.unserialize Sidechain.Bitcoin.CBlockHeader.unserialize) proofData
    else
      ParentMerkleBlock.elements <$> readItem (CMerkleBlock.unserialize
        (CBlockHeader.unserialize (noWitnessContext params.g_con_blockheightinheader params.g_signed_blocks)))
        proofData
  pure ⟨value, asset, genesis_hash, claim_script, tx, merkle_block⟩

section Reads

theorem uint256Of_data (blob : Uint256) : uint256Of blob.data = .ok blob := by
  rw [uint256Of, dif_pos blob.size_data]

theorem readItem_of_roundTrip {α β : Type} {write : α → Bytes} {read : Decoder β} {x : α} {y : β}
    (roundTrip : ∀ rest, read (write x ++ rest) = .ok (y, rest)) : readItem read (write x) = .ok y := by
  have whole := roundTrip []
  rw [List.append_nil] at whole
  rw [readItem, whole]

end Reads

open Guard

theorem DecomposePeginWitness_bitcoin (params : PeginParams) (pow : params.ParentChainHasPow = true)
    {value : CAmount} (range : Int64Range value) (asset : CAsset) (genesis_hash : Uint256)
    (claim_script : CScript) {tx : Sidechain.Bitcoin.CMutableTransaction} (txEncodable : tx.Encodable)
    (inputs : tx.vin ≠ []) {merkle_block : CMerkleBlock Sidechain.Bitcoin.CBlockHeader}
    (tree : merkle_block.txn.Encodable) :
    DecomposePeginWitness params
        (Sidechain.Bitcoin.CreatePeginWitness value asset genesis_hash claim_script tx merkle_block) =
      .ok ⟨value, asset, genesis_hash, claim_script, .bitcoin tx.withoutWitness,
        .bitcoin ⟨merkle_block.header, { merkle_block.txn with
          vBits := BytesToBits (BitsToBytes merkle_block.txn.vBits), fBad := false }⟩⟩ := by
  have amount := readItem_of_roundTrip (unserializeInt64_roundTrip value range)
  have parent := readItem_of_roundTrip
    (Sidechain.Bitcoin.UnserializeTransaction_SerializeTransaction_noWitness true tx txEncodable inputs)
  have proof : readItem (CMerkleBlock.unserialize Sidechain.Bitcoin.CBlockHeader.unserialize)
      (merkle_block.serialize Sidechain.Bitcoin.CBlockHeader.serialize) = _ :=
    readItem_of_roundTrip
      (CMerkleBlock.unserialize_serialize (Sidechain.Bitcoin.CBlockHeader.unserialize_roundTrip _) tree)
  -- the six items exist: the decoder runs the three readers and the two conversions
  simp only [DecomposePeginWitness, Sidechain.Bitcoin.CreatePeginWitness, CreatePeginWitnessInner,
    List.length_cons, List.length_nil, zero_add, Nat.reduceAdd, Nat.reduceLT, ↓reduceIte, stackItem,
    Nat.zero_lt_succ, getElem?_pos, List.getElem_cons_zero, Nat.one_lt_ofNat, List.getElem_cons_succ, pow,
    Nat.lt_add_one, bind_pure_comp, Functor.map_map, ok_bind, proof, Except.map_ok, bind_map_left, parent,
    uint256Of_data, amount]

theorem DecomposePeginWitness_elements (params : PeginParams) (pow : params.ParentChainHasPow = false)
    {value : CAmount} (range : Int64Range value) (asset : CAsset) (genesis_hash : Uint256)
    (claim_script : CScript) {tx : CMutableTransaction} (txEncodable : tx.EncodableWithoutWitness)
    {merkle_block : CMerkleBlock CBlockHeader} (header : merkle_block.header.Encodable)
    (tree : merkle_block.txn.Encodable) :
    let ctx := noWitnessContext params.g_con_blockheightinheader params.g_signed_blocks
    DecomposePeginWitness params (CreatePeginWitness params.g_con_blockheightinheader params.g_signed_blocks
        value asset genesis_hash claim_script tx merkle_block) =
      .ok ⟨value, asset, genesis_hash, claim_script, .elements { tx with witness := CTxWitness.empty },
        .elements ⟨merkle_block.header.carried ctx, { merkle_block.txn with
          vBits := BytesToBits (BitsToBytes merkle_block.txn.vBits), fBad := false }⟩⟩ := by
  intro ctx
  have amount := readItem_of_roundTrip (unserializeInt64_roundTrip value range)
  have parent := readItem_of_roundTrip (UnserializeTransaction_noWitness tx txEncodable)
  have proof : readItem (CMerkleBlock.unserialize (CBlockHeader.unserialize ctx))
      (merkle_block.serialize (CBlockHeader.serialize ctx)) = _ :=
    readItem_of_roundTrip
      (CMerkleBlock.unserialize_serialize (CBlockHeader.unserialize_roundTrip ctx _ header) tree)
  simp only [DecomposePeginWitness, CreatePeginWitness, CreatePeginWitnessInner, List.length_cons,
    List.length_nil, zero_add, Nat.reduceAdd, Nat.reduceLT, ↓reduceIte, stackItem, Nat.zero_lt_succ,
    getElem?_pos, List.getElem_cons_zero, Nat.one_lt_ofNat, List.getElem_cons_succ, pow, Bool.false_eq_true,
    Nat.lt_add_one, bind_pure_comp, Functor.map_map, ok_bind, proof, Except.map_ok, bind_map_left, parent,
    uint256Of_data, amount, ctx]

/-- `DecomposePeginWitness` inverts `CreatePeginWitness` for either parent
kind, up to what the encodings carry: the parent transaction comes back
without its witness and with its txid, the merkle block with the header's
fields on the wire and the partial tree with its bits padded to a whole byte
and `fBad` clear. A Bitcoin parent needs an input, or its encoding reads as
the witness marker. -/
theorem DecomposePeginWitness_CreatePeginWitness (H : Hashes) :
    (∀ (params : PeginParams), params.ParentChainHasPow = true → ∀ (value : CAmount), Int64Range value →
      ∀ (asset : CAsset) (genesis_hash : Uint256) (claim_script : CScript)
        (tx : Sidechain.Bitcoin.CMutableTransaction), tx.Encodable → tx.vin ≠ [] →
      ∀ (merkle_block : CMerkleBlock Sidechain.Bitcoin.CBlockHeader), merkle_block.txn.Encodable →
      ∃ parent : Sidechain.Bitcoin.CMutableTransaction,
        DecomposePeginWitness params
            (Sidechain.Bitcoin.CreatePeginWitness value asset genesis_hash claim_script tx merkle_block) =
          .ok ⟨value, asset, genesis_hash, claim_script, .bitcoin parent,
            .bitcoin ⟨merkle_block.header, { merkle_block.txn with
              vBits := BytesToBits (BitsToBytes merkle_block.txn.vBits), fBad := false }⟩⟩ ∧
        parent.GetHash H = tx.GetHash H) ∧
    (∀ (params : PeginParams), params.ParentChainHasPow = false → ∀ (value : CAmount), Int64Range value →
      ∀ (asset : CAsset) (genesis_hash : Uint256) (claim_script : CScript) (tx : CMutableTransaction),
        tx.EncodableWithoutWitness →
      ∀ (merkle_block : CMerkleBlock CBlockHeader), merkle_block.header.Encodable → merkle_block.txn.Encodable →
      ∃ parent : CMutableTransaction,
        DecomposePeginWitness params (CreatePeginWitness params.g_con_blockheightinheader
            params.g_signed_blocks value asset genesis_hash claim_script tx merkle_block) =
          .ok ⟨value, asset, genesis_hash, claim_script, .elements parent,
            .elements ⟨merkle_block.header.carried
                (noWitnessContext params.g_con_blockheightinheader params.g_signed_blocks),
              { merkle_block.txn with
                vBits := BytesToBits (BitsToBytes merkle_block.txn.vBits), fBad := false }⟩⟩ ∧
        parent.GetHash H = tx.GetHash H) := by
  constructor
  · intro params pow value range asset genesis_hash claim_script tx txEncodable inputs merkle_block tree
    exact ⟨tx.withoutWitness,
      DecomposePeginWitness_bitcoin params pow range asset genesis_hash claim_script txEncodable inputs tree,
      Sidechain.Bitcoin.GetHash_withoutWitness H tx⟩
  · intro params pow value range asset genesis_hash claim_script tx txEncodable merkle_block header tree
    exact ⟨{ tx with witness := CTxWitness.empty },
      DecomposePeginWitness_elements params pow range asset genesis_hash claim_script txEncodable header tree,
      GetHash_without_witness H tx⟩

/-- A peg-in witness with its last item dropped passes the guard, and the
decoder reads item 5, which the stack does not have. -/
theorem DecomposePeginWitness_reads_missing_item (params : PeginParams) (pow : params.ParentChainHasPow = true)
    {value : CAmount} (range : Int64Range value) (asset : CAsset) (genesis_hash : Uint256)
    (claim_script : CScript) {tx : Sidechain.Bitcoin.CMutableTransaction} (txEncodable : tx.Encodable)
    (inputs : tx.vin ≠ []) (merkle_block : CMerkleBlock Sidechain.Bitcoin.CBlockHeader) :
    DecomposePeginWitness params
        ⟨(Sidechain.Bitcoin.CreatePeginWitness value asset genesis_hash claim_script tx merkle_block).stack.take 5⟩ =
      .error (.outOfRange 5) := by
  have amount := readItem_of_roundTrip (unserializeInt64_roundTrip value range)
  have parent := readItem_of_roundTrip
    (Sidechain.Bitcoin.UnserializeTransaction_SerializeTransaction_noWitness true tx txEncodable inputs)
  -- five items pass the guard, are read, and then item 5 is looked up
  simp only [DecomposePeginWitness, Sidechain.Bitcoin.CreatePeginWitness, CreatePeginWitnessInner,
    List.take_succ_cons, List.take_zero, List.length_cons, List.length_nil, zero_add, Nat.reduceAdd,
    lt_self_iff_false, ↓reduceIte, stackItem, Nat.zero_lt_succ, getElem?_pos, List.getElem_cons_zero,
    Nat.one_lt_ofNat, List.getElem_cons_succ, Nat.reduceLT, Nat.lt_add_one, pow, not_false_eq_true, getElem?_neg,
    bind_pure_comp, Functor.map_map, error_bind, bind_map_left, ok_bind, parent, uint256Of_data, amount]

/-- A peg-in of one coin to an `OP_TRUE` claim script, from a parent with one
input and one output, whose merkle block item is dropped. -/
theorem DecomposePeginWitness_reads_missing_item_one_coin :
    let params : PeginParams := ⟨true, false, true⟩
    let tx : Sidechain.Bitcoin.CMutableTransaction :=
      ⟨[⟨⟨Uint256.zero, 0⟩, [], 0xffffffff, ⟨[]⟩⟩], [⟨100000000, [0x51]⟩], 2, 0⟩
    let merkle_block : CMerkleBlock Sidechain.Bitcoin.CBlockHeader :=
      ⟨⟨1, Uint256.zero, Uint256.zero, 0, 0, 0⟩, ⟨1, [true], [Uint256.zero], false⟩⟩
    params.ParentChainHasPow = true ∧ Int64Range 100000000 ∧ tx.Encodable ∧ tx.vin ≠ [] ∧
      DecomposePeginWitness params ⟨(Sidechain.Bitcoin.CreatePeginWitness 100000000 ⟨Uint256.zero⟩
        Uint256.zero [0x51] tx merkle_block).stack.take 5⟩ = .error (.outOfRange 5) := by
  intro params tx merkle_block
  have range : Int64Range 100000000 := by decide
  have encodable : tx.Encodable := by
    refine ⟨by decide, by decide, fun txin member => ?_, fun txout member => ?_⟩
    · rw [List.mem_singleton] at member
      subst member
      decide
    · rw [List.mem_singleton] at member
      subst member
      exact ⟨by decide, by decide⟩
  have inputs : tx.vin ≠ [] := List.cons_ne_nil _ _
  exact ⟨rfl, range, encodable, inputs, DecomposePeginWitness_reads_missing_item params rfl range _ _ _
    encodable inputs merkle_block⟩

end Elements
