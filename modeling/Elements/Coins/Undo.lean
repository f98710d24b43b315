import Elements.Coins

/-! `undo.h` and the coins side of `validation.cpp`. `UpdateCoins` connects a transaction: it spends
its inputs into a `CTxUndo` and adds its outputs. `DisconnectBlock` undoes a block: from the last
transaction to the coinbase it spends the outputs again and gives each input back its coin with
`ApplyTxInUndo`. A failed assertion, a read past the end of a vector and a `logic_error` thrown by
`AddCoin` are all `none`. -/

namespace Elements

namespace Coins

/-- `CTxUndo`: the coins a transaction's inputs spent, one for each input, a dummy for a peg-in. -/
structure CTxUndo where
  vprevout : List Coin

inductive DisconnectResult where
  | DISCONNECT_OK
  | DISCONNECT_UNCLEAN
  | DISCONNECT_FAILED
  deriving DecidableEq, Repr

def DisconnectResult.ofClean (fClean : Bool) : DisconnectResult :=
  if fClean then .DISCONNECT_OK else .DISCONNECT_UNCLEAN

/-- The claim `std::make_pair(uint256(pegin_witness.stack[2]), prevout)` of a peg-in; `none` where the
stack has no third item, where that item does not hold the 32 bytes `uint256` asserts, or where either
hash is null, which `IsPeginSpent` and `SetPeginSpent` assert against. -/
def peginClaim (pegin_witness : CScriptWitness) (prevout : COutPoint) : Option PeginKey :=
  match pegin_witness.stack[2]? with
  | none => none
  | some item =>
      if size : item.length = 32 then
        if first : (⟨item, size⟩ : Uint256).IsNull = false then
          if hash : prevout.hash.IsNull = false then some ⟨(⟨item, size⟩, prevout), first, hash⟩ else none
        else none
      else none

namespace CCoinsViewCache

section Connect

variable (base : CCoinsView)

/-- `UpdateCoins`' loop over the inputs of `tx` from index `i`: a peg-in marks its claim spent and
leaves a dummy undo coin; any other input moves its coin into the undo data, and must find one. -/
def spendInputs (tx : CTransaction) : Nat → List CTxIn → CTxUndo × CCoinsViewCache →
    Option (CTxUndo × CCoinsViewCache)
  | _, [], done => some done
  | i, txin :: vin, (txundo, cache) =>
      if txin.isPegin then do
        -- `tx.witness.vtxinwit[i]`, read unchecked
        let txinwit ← tx.witness.vtxinwit[i]?
        let claim ← peginClaim txinwit.peginWitness txin.prevout
        spendInputs tx (i + 1) vin (⟨txundo.vprevout ++ [default]⟩, cache.SetPeginSpent base claim true)
      else
        match cache.SpendCoin base txin.prevout with
        | (none, _) => none
        | (some coin, cache) => spendInputs tx (i + 1) vin (⟨txundo.vprevout ++ [coin]⟩, cache)

end Connect

section Disconnect

variable (base : CCoinsView) (IsValidPeginWitness : CScriptWitness → COutPoint → Bool) (connect_genesis_outputs : Bool)

end Disconnect

end CCoinsViewCache

end Coins

end Elements
