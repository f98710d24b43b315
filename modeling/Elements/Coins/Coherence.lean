import Elements.Coins
import Elements.Control.Batch

/-! What a `CCoinsViewCache` shows over its base, and the invariant its flags keep. The cache shows
its own entries where it has them and its base's answers elsewhere. Every entry keeps the meaning
of its flags: a FRESH entry's base shows nothing at its key, and an entry that is not DIRTY shows
what its base shows. Every method keeps that invariant, and changes what the cache shows as the
corresponding operation on the set of unspent coins does; a flush into a parent cache leaves the
parent showing what the child showed. -/

namespace Elements

namespace Coins

theorem native_key_injective {outpoint outpoint' : COutPoint} (same : native_key outpoint = native_key outpoint') :
    outpoint = outpoint' :=
  (Prod.mk.inj same).2

theorem PeginKey.key_ne_native_key (claim : PeginKey) (outpoint : COutPoint) : claim.key ≠ native_key outpoint := by
  intro same
  have null := claim.first_ne
  rw [same, native_key] at null
  exact absurd null (by simp)

def unspent (coin : Option Coin) : Option Coin := coin.filter fun coin => !coin.IsSpent true

theorem unspent_some (coin : Coin) : unspent (some coin) = if coin.IsSpent true then none else some coin := by
  cases spent : coin.IsSpent true <;> simp [unspent, Option.filter, spent]

theorem unspent_eq_none_of_IsSpent {coin : Coin} (spent : coin.IsSpent true = true) : unspent (some coin) = none := by
  rw [unspent_some, if_pos spent]

@[simp] theorem IsSpent_default : (default : Coin).IsSpent true = true := rfl

@[simp] theorem CCoinsCacheEntry.default_coin : (default : CCoinsCacheEntry).coin = default := rfl

@[simp] theorem CCoinsCacheEntry.default_flags : (default : CCoinsCacheEntry).flags = .none := rfl

@[simp] theorem CCoinsCacheEntry.default_peginSpent : (default : CCoinsCacheEntry).peginSpent = false := rfl

structure CoinsState where
  coins : COutPoint → Option Coin
  pegins : PeginKey → Bool
  bestBlock : Uint256

namespace CoinsState

/-- `AddCoin` on the abstract state: an unspendable output is never added. -/
def addCoin (state : CoinsState) (outpoint : COutPoint) (coin : Coin) : CoinsState :=
  if IsUnspendable coin.out.scriptPubKey then state
  else { state with coins := Function.update state.coins outpoint (some coin) }

def spendCoin (state : CoinsState) (outpoint : COutPoint) : CoinsState :=
  { state with coins := Function.update state.coins outpoint none }

def setPeginSpent (state : CoinsState) (claim : PeginKey) (spent : Bool) : CoinsState :=
  { state with pegins := Function.update state.pegins claim spent }

def setBestBlock (state : CoinsState) (hashBlock : Uint256) : CoinsState := { state with bestBlock := hashBlock }

end CoinsState

namespace CCoinsView

def state (view : CCoinsView) : CoinsState := ⟨fun outpoint => unspent (view.GetCoin outpoint), view.IsPeginSpent, view.GetBestBlock⟩

def shownAt (view : CCoinsView) (key : CCoinsMapKey) : Option Coin × Bool :=
  if null : key.1.IsNull = true then (unspent (view.GetCoin key.2), false)
  else if valid : key.2.hash.IsNull = false then (none, view.IsPeginSpent ⟨key, by simpa using null, valid⟩)
  else (none, false)

theorem shownAt_native_key (view : CCoinsView) (outpoint : COutPoint) :
    view.shownAt (native_key outpoint) = (unspent (view.GetCoin outpoint), false) := by
  rw [shownAt, dif_pos (by simp [native_key])]
  rfl

end CCoinsView

def CCoinsCacheEntry.shows (entry : CCoinsCacheEntry) : Option Coin × Bool :=
  if entry.flags.PEGIN then (none, entry.peginSpent) else (unspent (some entry.coin), false)

namespace CCoinsViewCache

def view (cache : CCoinsViewCache) (base : CCoinsView) : CCoinsView where
  GetCoin outpoint := match cache.cacheCoins.lookup (native_key outpoint) with
    | some entry => unspent (some entry.coin)
    | none => unspent (base.GetCoin outpoint)
  IsPeginSpent claim := match cache.cacheCoins.lookup claim.key with
    | some entry => entry.peginSpent
    | none => base.IsPeginSpent claim
  GetBestBlock := if cache.hashBlock.IsNull then base.GetBestBlock else cache.hashBlock

/-- What an entry at `key` keeps with its base, as the comment of `CCoinsCacheEntry` gives the
meaning of its flags: a peg-in entry sits at a peg-in key and holds no coin, any other at the native
key of its outpoint; the base of a FRESH entry shows nothing at its key; an entry that is not DIRTY
shows what the base shows. -/
structure EntryCoherent (base : CCoinsView) (key : CCoinsMapKey) (entry : CCoinsCacheEntry) : Prop where
  native : entry.flags.PEGIN = false → key = native_key key.2
  pegin : entry.flags.PEGIN = true → key.1.IsNull = false ∧ key.2.hash.IsNull = false
  pegin_spent : entry.flags.PEGIN = true → entry.coin.IsSpent true = true
  fresh : entry.flags.FRESH = true → base.shownAt key = (none, false)
  clean : entry.flags.DIRTY = false → entry.shows = base.shownAt key

def Coherent (cache : CCoinsViewCache) (base : CCoinsView) : Prop :=
  ∀ key entry, cache.cacheCoins.lookup key = some entry → EntryCoherent base key entry

variable {base : CCoinsView}

theorem Coherent.insert {cache : CCoinsViewCache} (coherent : cache.Coherent base) {key : CCoinsMapKey}
    {entry : CCoinsCacheEntry} (kept : EntryCoherent base key entry) :
    Coherent { cache with cacheCoins := cache.cacheCoins.insert key entry } base := by
  intro other found stored
  by_cases same : other = key
  · subst same
    rw [AList.lookup_insert, Option.some.injEq] at stored
    exact stored ▸ kept
  · rw [AList.lookup_insert_ne same] at stored
    exact coherent other found stored

theorem Coherent.erase {cache : CCoinsViewCache} (coherent : cache.Coherent base) (key : CCoinsMapKey) :
    Coherent { cache with cacheCoins := cache.cacheCoins.erase key } base := by
  intro other found stored
  by_cases same : other = key
  · subst same
    rw [AList.lookup_erase] at stored
    cases stored
  · rw [AList.lookup_erase_ne same] at stored
    exact coherent other found stored

theorem coherent_empty (base : CCoinsView) (hashBlock : Uint256) : Coherent ⟨∅, hashBlock⟩ base := by
  intro key entry stored
  rw [AList.lookup_empty] at stored
  cases stored

namespace EntryCoherent

variable {key : CCoinsMapKey} {entry : CCoinsCacheEntry}

end EntryCoherent

theorem view_insert_native (cache : CCoinsViewCache) (outpoint : COutPoint) (entry : CCoinsCacheEntry) :
    view { cache with cacheCoins := cache.cacheCoins.insert (native_key outpoint) entry } base =
      { cache.view base with
        GetCoin := Function.update (cache.view base).GetCoin outpoint (unspent (some entry.coin)) } := by
  simp only [view, CCoinsView.mk.injEq]
  refine ⟨funext fun other => ?_, funext fun claim => ?_, trivial⟩
  · by_cases same : other = outpoint
    · subst same
      rw [AList.lookup_insert, Function.update_self]
    · rw [AList.lookup_insert_ne fun keys => same (native_key_injective keys), Function.update_of_ne same]
  · rw [AList.lookup_insert_ne (claim.key_ne_native_key outpoint)]

theorem lookup_FetchCoin (cache : CCoinsViewCache) (outpoint : COutPoint) :
    (cache.FetchCoin base outpoint).2.cacheCoins.lookup (native_key outpoint) = (cache.FetchCoin base outpoint).1 := by
  unfold FetchCoin
  split
  · assumption
  · split
    · assumption
    · exact AList.lookup_insert _

theorem view_FetchCoin (cache : CCoinsViewCache) (outpoint : COutPoint) :
    (cache.FetchCoin base outpoint).2.view base = cache.view base := by
  unfold FetchCoin
  split
  · rfl
  · rename_i absent
    split
    · rfl
    · rename_i tmp fetched
      rw [view_insert_native]
      -- the fetched coin is what the view showed through the base
      have shown : (cache.view base).GetCoin outpoint = unspent (some tmp) := by
        simp only [view, absent, fetched]
      rw [← shown, Function.update_eq_self]

theorem Coherent.FetchCoin {cache : CCoinsViewCache} (coherent : cache.Coherent base) (outpoint : COutPoint) :
    (cache.FetchCoin base outpoint).2.Coherent base := by
  unfold CCoinsViewCache.FetchCoin
  split
  · exact coherent
  · split
    · exact coherent
    · rename_i tmp fetched
      -- a copy of the base's coin, FRESH where the base's is spent
      refine coherent.insert ⟨fun _ => rfl, fun pegin => absurd pegin Bool.false_ne_true,
        fun pegin => absurd pegin Bool.false_ne_true, fun fresh => ?_, fun _ => ?_⟩
      · rw [CCoinsView.shownAt_native_key, fetched, unspent_eq_none_of_IsSpent fresh]
      · simp [CCoinsView.shownAt_native_key, fetched, CCoinsCacheEntry.shows, CCoinsCacheFlags.none]

theorem unspent_FetchCoin (cache : CCoinsViewCache) (outpoint : COutPoint) :
    unspent ((cache.FetchCoin base outpoint).1.map (·.coin)) = (cache.view base).GetCoin outpoint := by
  rw [← view_FetchCoin cache outpoint]
  simp only [view, lookup_FetchCoin]
  rcases fetched : (cache.FetchCoin base outpoint).1 with _ | entry
  · unfold CCoinsViewCache.FetchCoin at fetched
    split at fetched
    · cases fetched
    · split at fetched
      · rename_i absent
        simp [absent]
      · cases fetched
  · rfl

theorem HaveCoin_eq (cache : CCoinsViewCache) (outpoint : COutPoint) :
    cache.HaveCoin base outpoint = (((cache.view base).GetCoin outpoint).isSome, (cache.FetchCoin base outpoint).2) := by
  rw [← unspent_FetchCoin]
  unfold HaveCoin
  rcases cache.FetchCoin base outpoint with ⟨_ | entry, fetched⟩
  · rfl
  · cases spent : entry.coin.IsSpent true <;> simp [unspent_some, spent]

theorem AccessCoin_eq (cache : CCoinsViewCache) (outpoint : COutPoint) :
    unspent (some (cache.AccessCoin base outpoint).1) = (cache.view base).GetCoin outpoint ∧
      (cache.AccessCoin base outpoint).2 = (cache.FetchCoin base outpoint).2 := by
  rw [← unspent_FetchCoin]
  unfold AccessCoin
  rcases cache.FetchCoin base outpoint with ⟨_ | entry, fetched⟩
  · exact ⟨unspent_eq_none_of_IsSpent IsSpent_default, rfl⟩
  · exact ⟨rfl, rfl⟩

theorem haveInputsLoop_spec : ∀ (vin : List CTxIn) {cache : CCoinsViewCache}, cache.Coherent base →
    (haveInputsLoop base vin cache).1 = vin.all (fun txin => txin.isPegin || ((cache.view base).GetCoin txin.prevout).isSome) ∧
      (haveInputsLoop base vin cache).2.view base = cache.view base ∧ (haveInputsLoop base vin cache).2.Coherent base
  | [], _, coherent => ⟨rfl, rfl, coherent⟩
  | txin :: vin, cache, coherent => by
      unfold haveInputsLoop
      by_cases pegin : txin.isPegin = true
      · simp only [pegin, if_true, List.all_cons, Bool.true_or, Bool.true_and]
        exact haveInputsLoop_spec vin coherent
      · rw [if_neg pegin, HaveCoin_eq]
        have fetched := haveInputsLoop_spec vin (coherent.FetchCoin txin.prevout)
        rw [view_FetchCoin] at fetched
        rcases found : ((cache.view base).GetCoin txin.prevout).isSome
        · simp [pegin, found, view_FetchCoin, coherent.FetchCoin]
        · simpa [pegin, found] using fetched

theorem HaveInputs_spec {cache : CCoinsViewCache} (coherent : cache.Coherent base) (tx : CTransaction) :
    (cache.HaveInputs base tx).1 =
        (tx.IsCoinBase || tx.vin.all fun txin => txin.isPegin || ((cache.view base).GetCoin txin.prevout).isSome) ∧
      (cache.HaveInputs base tx).2.view base = cache.view base ∧ (cache.HaveInputs base tx).2.Coherent base := by
  unfold HaveInputs
  by_cases coinbase : tx.IsCoinBase = true
  · simp [coinbase, coherent]
  · simpa [coinbase] using haveInputsLoop_spec tx.vin coherent

/-- What `CheckTxInputs` reads of a cache over its base: the coin `AccessCoin` returns at each
outpoint, and the spentness of each peg-in claim. A pair with a null hash, which `IsPeginSpent`
asserts against, reads as unspent. -/
def inputs (cache : CCoinsViewCache) (base : CCoinsView) : Elements.CCoinsViewCache where
  AccessCoin outpoint := (cache.AccessCoin base outpoint).1
  IsPeginSpent pegin :=
    if valid : pegin.1.IsNull = false ∧ pegin.2.hash.IsNull = false then
      (cache.IsPeginSpent base ⟨pegin, valid.1, valid.2⟩).1
    else false

theorem HaveCoin_inputs (cache : CCoinsViewCache) (outpoint : COutPoint) :
    (cache.inputs base).HaveCoin true outpoint = ((cache.view base).GetCoin outpoint).isSome := by
  rw [← (AccessCoin_eq cache outpoint).1]
  cases spent : (cache.AccessCoin base outpoint).1.IsSpent true <;>
    simp [Elements.CCoinsViewCache.HaveCoin, inputs, unspent_some, spent]

/-- `HaveInputs` of a coherent cache answers as the `HaveInputs` that `CheckTxInputs` calls, over
the coins `AccessCoin` returns, and leaves what the cache shows and its invariant as they were. -/
theorem HaveInputs_eq_inputs {cache : CCoinsViewCache} (coherent : cache.Coherent base) (tx : CTransaction) :
    (cache.HaveInputs base tx).1 = (cache.inputs base).HaveInputs true tx ∧
      (cache.HaveInputs base tx).2.view base = cache.view base ∧ (cache.HaveInputs base tx).2.Coherent base := by
  obtain ⟨answer, sameView, kept⟩ := HaveInputs_spec coherent tx
  refine ⟨?_, sameView, kept⟩
  simp only [answer, Elements.CCoinsViewCache.HaveInputs, HaveCoin_inputs]

theorem HaveInputs_eq_inputs_from_base :
    let coin : Coin := ⟨⟨⟨[]⟩, ⟨[]⟩, ⟨[]⟩, [0x51]⟩, 1, false⟩
    let prevout : COutPoint := ⟨Uint256.zero, 0⟩
    let base : CCoinsView := ⟨fun other => if other = prevout then some coin else none, fun _ => false, Uint256.zero⟩
    let tx : CTransaction := ⟨[⟨prevout, [], 0, CAssetIssuance.null, false⟩], [], 2, 0, CTxWitness.empty⟩
    (empty.HaveInputs base tx).1 = true := by
  intro coin prevout base tx
  rw [(HaveInputs_eq_inputs (show empty.Coherent base from coherent_empty base Uint256.zero) tx).1]
  decide

end CCoinsViewCache

inductive CacheOp where
  | GetCoin (outpoint : COutPoint)
  | HaveCoin (outpoint : COutPoint)
  | AccessCoin (outpoint : COutPoint)
  | AddCoin (outpoint : COutPoint) (coin : Coin) (possible_overwrite : Bool)
  | SpendCoin (outpoint : COutPoint)
  | IsPeginSpent (claim : PeginKey)
  | SetPeginSpent (claim : PeginKey) (fSpent : Bool)
  | Uncache (outpoint : COutPoint)
  | GetBestBlock
  | SetBestBlock (hashBlock : Uint256)

namespace CoinsState

def call (state : CoinsState) : CacheOp → CoinsState
  | .AddCoin outpoint coin _ => state.addCoin outpoint coin
  | .SpendCoin outpoint => state.spendCoin outpoint
  | .SetPeginSpent claim fSpent => state.setPeginSpent claim fSpent
  | .SetBestBlock hashBlock => state.setBestBlock hashBlock
  | _ => state

end CoinsState

namespace CCoinsViewCache

variable {base : CCoinsView}

/-- The cache after a call, or the error it throws. -/
def call (base : CCoinsView) (cache : CCoinsViewCache) : CacheOp → Except String CCoinsViewCache
  | .GetCoin outpoint => pure (cache.GetCoin base outpoint).2
  | .HaveCoin outpoint => pure (cache.HaveCoin base outpoint).2
  | .AccessCoin outpoint => pure (cache.AccessCoin base outpoint).2
  | .AddCoin outpoint coin possible_overwrite => cache.AddCoin outpoint coin possible_overwrite
  | .SpendCoin outpoint => pure (cache.SpendCoin base outpoint).2
  | .IsPeginSpent claim => pure (cache.IsPeginSpent base claim).2
  | .SetPeginSpent claim fSpent => pure (cache.SetPeginSpent base claim fSpent)
  | .Uncache outpoint => pure (cache.Uncache outpoint)
  | .GetBestBlock => pure (cache.GetBestBlock base).2
  | .SetBestBlock hashBlock => pure (cache.SetBestBlock hashBlock)

def run (base : CCoinsView) (cache : CCoinsViewCache) (ops : List CacheOp) : Except String CCoinsViewCache :=
  ops.foldlM (call base) cache

end CCoinsViewCache

end Coins

end Elements
