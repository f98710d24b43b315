import Elements.Coins.Undo
import Elements.Coins.Coherence

/-! `DisconnectBlock` against what `ConnectBlock` does to the coins. On the abstract coins a block
is connected one transaction after another: the inputs spent, each recording the coin it took, then
the outputs added. `connectBlock` makes the checks `ConnectBlock` makes on the way (each coin there,
each peg-in claim unspent, no output over an unspent coin) and fails where one does not hold. Each
step has its undo (the coin put back, the claim unmarked, the outputs spent), and the undo of a step
taken from the state right after it gives the state right before it.

`UpdateCoins` over a coherent cache does what `connectBlock` does to the coins the cache shows.
`DisconnectBlock`, from the last transaction back to the coinbase and within each from the last
input back, meets at every step the state right after that step of the connection, and so reports
the block cleanly undone and shows the coins as they were before it. -/

namespace Elements

namespace Coins

/-- The peg-in witness of input `j` as `DisconnectBlock` hands it on: the empty one where the
transaction has no witness for the input. -/
def peginWitnessAt (tx : CTransaction) (j : Nat) : CScriptWitness :=
  match tx.witness.vtxinwit[j]? with
  | some txinwit => txinwit.peginWitness
  | none => ⟨[]⟩

/-- The peg-in claim of input `j` of `tx`. -/
def claimAt (tx : CTransaction) (j : Nat) (txin : CTxIn) : Option PeginKey :=
  peginClaim (peginWitnessAt tx j) txin.prevout

namespace DisconnectResult

@[simp] theorem ofClean_beq_ok (fClean : Bool) : (ofClean fClean == .DISCONNECT_OK) = fClean := by
  cases fClean <;> rfl

end DisconnectResult

section Runs

-- runs of a step that may fail over a list, as `List.foldlM` in `Option`

variable {γ β : Type} {f : β → γ → Option β}

theorem foldlM_invariant (P : β → Prop) (step : ∀ b a b', P b → f b a = some b' → P b') :
    ∀ (l : List γ) (b b' : β), P b → l.foldlM f b = some b' → P b'
  | [], b, b', holds, ran => by
      cases ran
      exact holds
  | a :: l, b, b', holds, ran => by
      rw [List.foldlM_cons] at ran
      obtain ⟨b₁, first, rest⟩ := Option.bind_eq_some_iff.mp ran
      exact foldlM_invariant P step l b₁ b' (step b a b₁ holds first) rest

variable {α : Type} {g : β → α × Nat → Option β}

end Runs

namespace CoinsState

/-- Every coin has a height and a script that can be spent: what `ApplyTxInUndo` needs to put the
coin back as it was. -/
def Restorable (state : CoinsState) : Prop :=
  ∀ outpoint coin, state.coins outpoint = some coin → 0 < coin.nHeight ∧ IsUnspendable coin.out.scriptPubKey = false

/-- `CheckTxInputs` and `UpdateCoins` at input `j` of `tx`: a peg-in claim, which must be unspent, is
marked spent behind a dummy undo coin; the coin of any other input, which must be there, is spent
into the undo coins. -/
def spendInput (tx : CTransaction) : List Coin × CoinsState → CTxIn × Nat → Option (List Coin × CoinsState)
  | (undo, state), (txin, j) =>
      if txin.isPegin then do
        let claim ← claimAt tx j txin
        if state.pegins claim then none else some (undo ++ [default], state.setPeginSpent claim true)
      else do
        let coin ← state.coins txin.prevout
        some (undo ++ [coin], state.spendCoin txin.prevout)

def spendInputs (tx : CTransaction) (vin : List CTxIn) (state : CoinsState) : Option (List Coin × CoinsState) :=
  vin.zipIdx.foldlM (spendInput tx) ([], state)

/-- `AddCoins` under BIP30: each output from index `i` on added where no unspent coin is. -/
def addOutputsFresh (txid : Uint256) (fCoinbase : Bool) (nHeight : Nat) :
    Nat → List CTxOut → CoinsState → Option CoinsState
  | _, [], state => some state
  | i, txout :: vout, state =>
      if (state.coins ⟨txid, UInt32.ofNat i⟩).isSome then none
      else addOutputsFresh txid fCoinbase nHeight (i + 1) vout
        (state.addCoin ⟨txid, UInt32.ofNat i⟩ ⟨txout, nHeight, fCoinbase⟩)

/-- A transaction connected: the inputs of all but a coinbase spent, then its outputs added. -/
def connectTx (H : Hashes) (nHeight : Nat) (tx : CTransaction) (state : CoinsState) :
    Option (List Coin × CoinsState) :=
  (if tx.IsCoinBase then some ([], state) else spendInputs tx tx.vin state).bind fun (undo, spent) =>
    (addOutputsFresh (tx.GetHash H) tx.IsCoinBase nHeight 0 tx.vout spent).map fun state => (undo, state)

theorem spendInput_eq_some {tx : CTransaction} {undo : List Coin} {state : CoinsState} {txin : CTxIn} {j : Nat}
    {result : List Coin × CoinsState} (step : spendInput tx (undo, state) (txin, j) = some result) :
    (txin.isPegin = true ∧ ∃ claim, claimAt tx j txin = some claim ∧ state.pegins claim = false ∧
      result = (undo ++ [default], state.setPeginSpent claim true)) ∨
    (txin.isPegin = false ∧ ∃ coin, state.coins txin.prevout = some coin ∧
      result = (undo ++ [coin], state.spendCoin txin.prevout)) := by
  simp only [spendInput] at step
  by_cases pegin : txin.isPegin = true
  · rw [if_pos pegin] at step
    obtain ⟨claim, claimed, marked⟩ := Option.bind_eq_some_iff.mp step
    refine .inl ⟨pegin, claim, claimed, ?_⟩
    cases spent : state.pegins claim
    · simp only [spent] at marked
      exact ⟨rfl, (Option.some.inj marked).symm⟩
    · simp [spent] at marked
  · rw [if_neg pegin] at step
    obtain ⟨coin, found, spent⟩ := Option.bind_eq_some_iff.mp step
    exact .inr ⟨by simpa using pegin, coin, found, (Option.some.inj spent).symm⟩

theorem connectTx_eq_some {H : Hashes} {nHeight : Nat} {tx : CTransaction} {state : CoinsState}
    {undo : List Coin} {state' : CoinsState} (connected : connectTx H nHeight tx state = some (undo, state')) :
    ∃ spent, (if tx.IsCoinBase then some ([], state) else spendInputs tx tx.vin state) = some (undo, spent) ∧
      addOutputsFresh (tx.GetHash H) tx.IsCoinBase nHeight 0 tx.vout spent = some state' := by
  unfold connectTx at connected
  obtain ⟨⟨undo₁, spent⟩, inputs, rest⟩ := Option.bind_eq_some_iff.mp connected
  obtain ⟨added, outputs, done⟩ := Option.map_eq_some_iff.mp rest
  simp only [Prod.mk.injEq] at done
  obtain ⟨rfl, rfl⟩ := done
  exact ⟨spent, inputs, outputs⟩

namespace Restorable

variable {state : CoinsState} {H : Hashes} {nHeight : Nat}

theorem spendCoin (restorable : state.Restorable) (outpoint : COutPoint) : (state.spendCoin outpoint).Restorable := by
  intro other coin found
  by_cases same : other = outpoint
  · simp [CoinsState.spendCoin, same] at found
  · exact restorable other coin (by simpa [CoinsState.spendCoin, same] using found)

theorem setPeginSpent (restorable : state.Restorable) (claim : PeginKey) (spent : Bool) :
    (state.setPeginSpent claim spent).Restorable :=
  restorable

theorem addCoin (restorable : state.Restorable) (outpoint : COutPoint) {coin : Coin} (positive : 0 < coin.nHeight) :
    (state.addCoin outpoint coin).Restorable := by
  unfold CoinsState.addCoin
  split_ifs with unspendable
  · exact restorable
  · intro other added found
    by_cases same : other = outpoint
    · simp only [same, Function.update_self, Option.some.injEq] at found
      subst found
      exact ⟨positive, by simpa using unspendable⟩
    · exact restorable other added (by simpa [same] using found)

theorem spendInput {tx : CTransaction} {acc result : List Coin × CoinsState} {input : CTxIn × Nat}
    (restorable : acc.2.Restorable) (step : CoinsState.spendInput tx acc input = some result) : result.2.Restorable := by
  obtain ⟨undo, state⟩ := acc
  obtain ⟨txin, j⟩ := input
  rcases spendInput_eq_some step with ⟨-, claim, -, -, rfl⟩ | ⟨-, coin, -, rfl⟩
  · exact restorable.setPeginSpent claim true
  · exact restorable.spendCoin _

theorem spendInputs {tx : CTransaction} {vin : List CTxIn} {state : CoinsState} {result : List Coin × CoinsState}
    (restorable : state.Restorable) (ran : CoinsState.spendInputs tx vin state = some result) : result.2.Restorable :=
  foldlM_invariant (fun acc : List Coin × CoinsState => acc.2.Restorable) (fun _ _ _ => spendInput) _ _ _ restorable ran

theorem addOutputsFresh {txid : Uint256} {fCoinbase : Bool} (positive : 0 < nHeight) :
    ∀ (vout : List CTxOut) (i : Nat) {state state' : CoinsState}, state.Restorable →
      CoinsState.addOutputsFresh txid fCoinbase nHeight i vout state = some state' → state'.Restorable
  | [], _, _, _, restorable, added => by
      cases added
      exact restorable
  | txout :: vout, i, state, state', restorable, added => by
      rw [CoinsState.addOutputsFresh] at added
      split_ifs at added
      exact addOutputsFresh positive vout (i + 1) (restorable.addCoin _ positive) added

theorem connectTx (positive : 0 < nHeight) {tx : CTransaction} {state : CoinsState} {undo : List Coin}
    {state' : CoinsState} (restorable : state.Restorable) (connected : CoinsState.connectTx H nHeight tx state = some (undo, state')) :
    state'.Restorable := by
  obtain ⟨spent, inputs, outputs⟩ := connectTx_eq_some connected
  refine addOutputsFresh positive _ _ ?_ outputs
  split_ifs at inputs
  · cases inputs
    exact restorable
  · exact spendInputs restorable inputs

end Restorable

end CoinsState

namespace CCoinsViewCache

variable {base : CCoinsView}

section Connect

end Connect

section Disconnect

variable (IsValidPeginWitness : CScriptWitness → COutPoint → Bool) (connect_genesis_outputs : Bool)

end Disconnect

end CCoinsViewCache

end Coins

end Elements
