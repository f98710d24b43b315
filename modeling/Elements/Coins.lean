import Mathlib.Data.List.AList
import Elements.Consensus.TxVerify
import Elements.Primitives.WireFormat

/-! `coins.h` and `coins.cpp`: the coins view and its write-back cache. A `CCoinsViewCache` keeps
entries over a base view: coins under the native key of their outpoint, and the spentness of
peg-in claims under their pair of hashes. Each entry carries the flags `DIRTY` (it may differ from
the base), `FRESH` (the base holds nothing at its key) and `PEGIN`. The base is a parameter of the
cache's methods; the `const` methods that fill the `mutable` map return the cache they leave.
Whether a coin is spent and whether a script is unspendable both read `g_con_elementsmode`; the
cache is modelled in Elements mode, as `IsUnspendable` is, so every `IsSpent` here reads it set.

The cache lives in namespace `Coins`: `Elements.CCoinsViewCache` is the part of it that
`CheckTxInputs` reads. -/

namespace Elements

/-- The null output `SetNull` leaves. -/
def CTxOut.null : CTxOut := ⟨⟨[]⟩, ⟨[]⟩, ⟨[]⟩, []⟩

deriving instance DecidableEq for Coin

namespace Coin

/-- `Coin()`, with the null output `generateEmptyCoin` forces. -/
instance : Inhabited Coin := ⟨⟨CTxOut.null, 0, false⟩⟩

def Clear (coin : Coin) : Coin := { coin with out := CTxOut.null, fCoinBase := false, nHeight := 0 }

end Coin

namespace Coins

/-- The flags of a `CCoinsCacheEntry`, one field for each bit. -/
structure CCoinsCacheFlags where
  DIRTY : Bool
  FRESH : Bool
  PEGIN : Bool
  deriving DecidableEq

/-- Flags `0`. -/
def CCoinsCacheFlags.none : CCoinsCacheFlags := ⟨false, false, false⟩

/-- `CCoinsCacheEntry`. A default-constructed entry leaves `peginSpent` unset; it is read only at
peg-in entries, which always set it, and the model gives it `false`. -/
structure CCoinsCacheEntry where
  coin : Coin
  flags : CCoinsCacheFlags
  peginSpent : Bool
  deriving DecidableEq

instance : Inhabited CCoinsCacheEntry := ⟨⟨default, .none, false⟩⟩

/-- `CCoinsMapKey`: the pair of a peg-in claim, or a null hash and the outpoint of a coin. -/
abbrev CCoinsMapKey := Uint256 × COutPoint

/-- `CCoinsMap`, one entry by key. -/
abbrev CCoinsMap := AList fun _ : CCoinsMapKey => CCoinsCacheEntry

def native_key (outpoint : COutPoint) : CCoinsMapKey := (Uint256.zero, outpoint)

/-- The key of a peg-in claim: `IsPeginSpent` and `SetPeginSpent` assert that neither of its
hashes is null. -/
structure PeginKey where
  key : CCoinsMapKey
  first_ne : key.1.IsNull = false
  hash_ne : key.2.hash.IsNull = false
  deriving DecidableEq

/-- What a `CCoinsView` answers. `GetCoin` returns the coin where its `bool` is true. -/
structure CCoinsView where
  GetCoin : COutPoint → Option Coin
  IsPeginSpent : PeginKey → Bool
  GetBestBlock : Uint256

/-- `CCoinsView`'s own methods: no coin, no spent claim, and the null best block. -/
def CCoinsView.empty : CCoinsView := ⟨fun _ => none, fun _ => false, Uint256.zero⟩

/-- `CCoinsViewCache`: its map and its best block; `cachedCoinsUsage` is not modelled. -/
structure CCoinsViewCache where
  cacheCoins : CCoinsMap
  hashBlock : Uint256

namespace CCoinsViewCache

def empty : CCoinsViewCache := ⟨∅, Uint256.zero⟩

section Methods

variable (base : CCoinsView)

/-- `FetchCoin(outpoint)`: the entry, fetched from the base when the map lacks it. -/
def FetchCoin (cache : CCoinsViewCache) (outpoint : COutPoint) : Option CCoinsCacheEntry × CCoinsViewCache :=
  match cache.cacheCoins.lookup (native_key outpoint) with
  | some entry => (some entry, cache)
  | none =>
      match base.GetCoin outpoint with
      | none => (none, cache)
      | some tmp =>
          -- a spent coin of the base is as good as none: the entry is FRESH
          let entry : CCoinsCacheEntry := ⟨tmp, { CCoinsCacheFlags.none with FRESH := tmp.IsSpent true }, false⟩
          (some entry, { cache with cacheCoins := cache.cacheCoins.insert (native_key outpoint) entry })

/-- `GetCoin(outpoint, coin)`: the coin where it is unspent. -/
def GetCoin (cache : CCoinsViewCache) (outpoint : COutPoint) : Option Coin × CCoinsViewCache :=
  match cache.FetchCoin base outpoint with
  | (some entry, cache) => (if entry.coin.IsSpent true then none else some entry.coin, cache)
  | (none, cache) => (none, cache)

def AccessCoin (cache : CCoinsViewCache) (outpoint : COutPoint) : Coin × CCoinsViewCache :=
  match cache.FetchCoin base outpoint with
  | (some entry, cache) => (entry.coin, cache)
  | (none, cache) => (Coin.empty, cache)

def HaveCoin (cache : CCoinsViewCache) (outpoint : COutPoint) : Bool × CCoinsViewCache :=
  match cache.FetchCoin base outpoint with
  | (some entry, cache) => (!entry.coin.IsSpent true, cache)
  | (none, cache) => (false, cache)

/-- `SpendCoin(outpoint, moveout)`: `some` the coin moved out where it returns true. A FRESH entry
is erased, any other cleared and marked DIRTY. -/
def SpendCoin (cache : CCoinsViewCache) (outpoint : COutPoint) : Option Coin × CCoinsViewCache :=
  match cache.FetchCoin base outpoint with
  | (none, cache) => (none, cache)
  | (some entry, cache) =>
      if entry.flags.FRESH then
        (some entry.coin, { cache with cacheCoins := cache.cacheCoins.erase (native_key outpoint) })
      else
        let spent := { entry with coin := entry.coin.Clear, flags := { entry.flags with DIRTY := true } }
        (some entry.coin, { cache with cacheCoins := cache.cacheCoins.insert (native_key outpoint) spent })

/-- `IsPeginSpent(outpoint)`: a claim the map lacks is fetched from the base, FRESH where unspent. -/
def IsPeginSpent (cache : CCoinsViewCache) (outpoint : PeginKey) : Bool × CCoinsViewCache :=
  match cache.cacheCoins.lookup outpoint.key with
  | some entry => (entry.peginSpent, cache)
  | none =>
      let peginSpent := base.IsPeginSpent outpoint
      let entry : CCoinsCacheEntry := ⟨default, ⟨false, !peginSpent, true⟩, peginSpent⟩
      (peginSpent, { cache with cacheCoins := cache.cacheCoins.insert outpoint.key entry })

/-- `SetPeginSpent(outpoint, fSpent)`: nothing where the spentness does not change. -/
def SetPeginSpent (cache : CCoinsViewCache) (outpoint : PeginKey) (fSpent : Bool) : CCoinsViewCache :=
  let found := cache.cacheCoins.lookup outpoint.key
  let hadSpent := match found with
    | none => base.IsPeginSpent outpoint
    | some entry => entry.peginSpent
  if hadSpent = fSpent then cache
  else
    let entry : CCoinsCacheEntry := match found with
      | none => { (default : CCoinsCacheEntry) with flags := { CCoinsCacheFlags.none with FRESH := !hadSpent } }
      | some entry => entry
    let entry := { entry with peginSpent := fSpent, flags := { entry.flags with PEGIN := true, DIRTY := true } }
    { cache with cacheCoins := cache.cacheCoins.insert outpoint.key entry }

/-- `GetBestBlock()`: the base's where none is set, which the cache then keeps. -/
def GetBestBlock (cache : CCoinsViewCache) : Uint256 × CCoinsViewCache :=
  if cache.hashBlock.IsNull then (base.GetBestBlock, { cache with hashBlock := base.GetBestBlock })
  else (cache.hashBlock, cache)

/-- `HaveInputs(tx)`'s loop over the inputs, which skips peg-ins. -/
def haveInputsLoop : List CTxIn → CCoinsViewCache → Bool × CCoinsViewCache
  | [], cache => (true, cache)
  | txin :: vin, cache =>
      if txin.isPegin then haveInputsLoop vin cache
      else
        match cache.HaveCoin base txin.prevout with
        | (false, cache) => (false, cache)
        | (true, cache) => haveInputsLoop vin cache

def HaveInputs (cache : CCoinsViewCache) (tx : CTransaction) : Bool × CCoinsViewCache :=
  if tx.IsCoinBase then (true, cache) else haveInputsLoop base tx.vin cache

end Methods

/-- `AddCoin(outpoint, coin, possible_overwrite)`. The entry is FRESH when it may not overwrite an
unspent coin and its spentness is not waiting to be flushed. A spent coin, which the source asserts
against, has an empty script and is returned on as unspendable. -/
def AddCoin (cache : CCoinsViewCache) (outpoint : COutPoint) (coin : Coin) (possible_overwrite : Bool) :
    Except String CCoinsViewCache :=
  if IsUnspendable coin.out.scriptPubKey then pure cache
  else
    let entry := (cache.cacheCoins.lookup (native_key outpoint)).getD default
    if !possible_overwrite && !entry.coin.IsSpent true then
      throw "Attempted to overwrite an unspent coin (when possible_overwrite is false)"
    else
      let fresh := !possible_overwrite && !entry.flags.DIRTY
      let entry := { entry with coin, flags := { entry.flags with DIRTY := true, FRESH := entry.flags.FRESH || fresh } }
      pure { cache with cacheCoins := cache.cacheCoins.insert (native_key outpoint) entry }

def SetBestBlock (cache : CCoinsViewCache) (hashBlock : Uint256) : CCoinsViewCache := { cache with hashBlock }

/-- `Uncache(outpoint)`: the entry is dropped where it has no flag. -/
def Uncache (cache : CCoinsViewCache) (outpoint : COutPoint) : CCoinsViewCache :=
  match cache.cacheCoins.lookup (native_key outpoint) with
  | some entry => if entry.flags = .none then { cache with cacheCoins := cache.cacheCoins.erase (native_key outpoint) } else cache
  | none => cache

/-- `HaveCoinInCache(outpoint)`: the map alone. -/
def HaveCoinInCache (cache : CCoinsViewCache) (outpoint : COutPoint) : Bool :=
  (cache.cacheCoins.lookup (native_key outpoint)).any fun entry => !entry.coin.IsSpent true

def GetCacheSize (cache : CCoinsViewCache) : Nat := cache.cacheCoins.entries.length

end CCoinsViewCache

end Coins

end Elements
