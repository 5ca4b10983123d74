import Covered.Cache.CacheMetadataBase
import Covered.Cache.LocalUncachedLru

/-!
# The local cache with its metadata containers

`CoveredLocalCache` has four containers: the store of the cached objects, the metadata of their
keys, the metadata of uncached keys and the small LRU cache. An uncached key starts in the small LRU
cache and moves to the metadata of uncached keys when its reward exceeds the least reward there; an
admission takes the key out of both, an eviction forgets it. The functions of the base class check
the object sizes around the functions of the local cache, and both are one function here.

The cached store answers requests; what the other containers do decides about later placements. The
functions abort where the source asserts.
-/

set_option autoImplicit false

namespace Covered.Cache

open Common Lib Lib.Checked

/-- The local cache: its capacity, the budgets of the two containers of uncached keys, and the
containers. -/
structure LocalCache where
  capacityBytes : Nat
  maxBytesForUncachedObjects : Nat
  maxBytesForLocalUncachedLru : Nat
  coveredCache : UnorderedMap Key Value := ∅
  internalKvbytes : Nat := 0
  localCachedMetadata : CacheMetadataBase HeteroKeyLevelMetadata := .empty
  localUncachedMetadata : CacheMetadataBase HomoKeyLevelMetadata := .empty
  localUncachedLru : LocalUncachedLru := .empty

/-- An operation on the local cache, with what it reads from its edge. -/
inductive LocalCacheOperation where
  | getLocalCache (edge : EdgeContext) (key : Key) (isRedirected : Bool)
  | getLocalCacheP2p (edge : EdgeContext) (key : Key) (redirectedReward : Nat)
  | updateLocalCache (edge : EdgeContext) (key : Key) (value : Value)
      (isGetrsp isGlobalCached : Bool)
  | admitLocalCache (edge : EdgeContext) (key : Key) (value : Value) (isNeighborCached : Bool)
  | evictLocalCacheWithGivenKey (key : Key)
  | updateIsNeighborCached (key : Key) (isNeighborCached : Bool)

/-- What an operation returns. -/
inductive LocalCacheResult where
  | value (value : Option Value)
  | updated (isLocalCached isSuccessful : Bool)
  | admitted (isSuccessful : Bool)
  | done
deriving DecidableEq

/-- The value that the rest of an object has, `0` bytes if the key alone is larger. -/
def valueOfObjectSize (key : Key) (objectSize : Nat) : Value :=
  Value.ofSize (if objectSize ≥ key.getKeyLength then objectSize - key.getKeyLength else 0)

namespace LocalCache

/-- A cache without objects. -/
def empty (capacityBytes maxBytesForUncachedObjects maxBytesForLocalUncachedLru : Nat) :
    LocalCache where
  capacityBytes := capacityBytes
  maxBytesForUncachedObjects := maxBytesForUncachedObjects
  maxBytesForLocalUncachedLru := maxBytesForLocalUncachedLru

def isValidObjsize (c : LocalCache) (key : Key) (value : Value) : Bool :=
  decide (c.capacityBytes > objectSize key value)

/-! ## From the small LRU cache to the metadata of uncached keys -/

/-- Whether a key with a reward is tracked with it: no key is, or one with a smaller reward. -/
def exceedsLeastReward (c : LocalCache) (reward : Reward) : Bool :=
  match c.localUncachedMetadata.getLeastRewardKeyAndReward 0 with
  | none => true
  | some (_, leastReward) => decide (reward > leastReward)

/-- `tryToMoveFromLocalUncachedLruToMetadata_`. -/
def tryToMoveFromLocalUncachedLruToMetadata (edge : EdgeContext) (c : LocalCache) (key : Key)
    (updatedLruReward : Reward) : Option LocalCache :=
  if updatedLruReward ≤ 0 then some c
  else if c.exceedsLeastReward updatedLruReward then do
    let lruObjectSize ← c.localUncachedLru.getObjectSize key
    let (lru, metadata) ← c.localUncachedLru.removeForExistingKey key
    let uncached ← c.localUncachedMetadata.addForNewKey (some c.maxBytesForUncachedObjects) edge key
      (valueOfObjectSize key lruObjectSize) metadata.isGlobalCached false
      metadata.base.localFrequency 1
    return { c with localUncachedLru := lru, localUncachedMetadata := uncached }
  else some c

/-! ## Reads -/

/-- A local request for a key that is not cached. -/
def getUncached (edge : EdgeContext) (c : LocalCache) (key : Key) : Option LocalCache :=
  if c.localUncachedMetadata.isKeyExist key then do
    let originalIsGlobalCached ← c.localUncachedMetadata.isGlobalCachedForExistingKey key
    let uncached ← c.localUncachedMetadata.updateNoValueStatsForExistingKey edge key false
      originalIsGlobalCached
    return { c with localUncachedMetadata := uncached }
  else if c.localUncachedLru.isKeyExist key then do
    let originalIsGlobalCached ← c.localUncachedLru.isGlobalCachedForExistingKey key
    let (lru, lruReward) ← c.localUncachedLru.updateNoValueStatsForExistingKey edge key
      originalIsGlobalCached
    tryToMoveFromLocalUncachedLruToMetadata edge { c with localUncachedLru := lru } key lruReward
  else some c

/-- Read a key. The metadata of an uncached key follows local requests only. -/
def getLocalCache (edge : EdgeContext) (c : LocalCache) (key : Key) (isRedirected : Bool) :
    Option (LocalCache × Option Value) :=
  match c.coveredCache.lookup key with
  | some value => do
      let cached ← c.localCachedMetadata.updateNoValueStatsForExistingKey edge key isRedirected true
      require (c.isValidObjsize key value = true)
      return ({ c with localCachedMetadata := cached }, some value)
  | none => (if isRedirected then some c else c.getUncached edge key).map (·, none)

/-- Read a key for another edge in the peer-to-peer mode. -/
def getLocalCacheP2p (edge : EdgeContext) (c : LocalCache) (key : Key) (redirectedReward : Nat) :
    Option (LocalCache × Option Value) :=
  match c.coveredCache.lookup key with
  | some value => do
      let cached ← c.localCachedMetadata.updateNoValueStatsForExistingKeyP2p edge key true true
        redirectedReward
      require (c.isValidObjsize key value = true)
      return ({ c with localCachedMetadata := cached }, some value)
  | none => some (c, none)

/-! ## Updates -/

/-- The bytes of the pairs after the value of a pair was replaced. -/
def updatedKvbytes (c : LocalCache) (originalValue value : Value) : Option Nat :=
  if originalValue.valuesize < value.valuesize then
    uint64Add c.internalKvbytes (value.valuesize - originalValue.valuesize)
  else if originalValue.valuesize > value.valuesize then
    some (uint64Minus c.internalKvbytes (originalValue.valuesize - value.valuesize))
  else some c.internalKvbytes

/-- The metadata of a cached object with a new value. A get response was preceded by the read that
it answers, so only a write counts as an access. -/
def updateLocalCachedMetadata (edge : EdgeContext) (c : LocalCache) (key : Key)
    (value originalValue : Value) (isGetrsp : Bool) :
    Option (CacheMetadataBase HeteroKeyLevelMetadata) :=
  if isGetrsp then
    c.localCachedMetadata.updateValueStatsForExistingKey edge key value originalValue
  else do
    let cached ← c.localCachedMetadata.updateNoValueStatsForExistingKey edge key false true
    cached.updateValueStatsForExistingKey edge key value originalValue

/-- A new value of a cached object. -/
def updateCached (edge : EdgeContext) (c : LocalCache) (key : Key) (value originalValue : Value)
    (isGetrsp : Bool) : Option LocalCache := do
  let kvbytes ← c.updatedKvbytes originalValue value
  let cached ← c.updateLocalCachedMetadata edge key value originalValue isGetrsp
  return { c with
    coveredCache := c.coveredCache.insert key value
    internalKvbytes := kvbytes
    localCachedMetadata := cached }

/-- The metadata of uncached keys without a key, if it is there. -/
def removeFromLocalUncachedMetadata (c : LocalCache) (key : Key) :
    Option (CacheMetadataBase HomoKeyLevelMetadata) :=
  if c.localUncachedMetadata.isKeyExist key then c.localUncachedMetadata.removeForExistingKey key
  else some c.localUncachedMetadata

/-- The small LRU cache without a key, if it is there. -/
def removeFromLocalUncachedLru (c : LocalCache) (key : Key) : Option LocalUncachedLru :=
  if c.localUncachedLru.isKeyExist key then
    (c.localUncachedLru.removeForExistingKey key).map Prod.fst
  else some c.localUncachedLru

/-- Forget an uncached key whose object is too large now. -/
def detrackUncached (c : LocalCache) (key : Key) : Option LocalCache := do
  let uncached ← c.removeFromLocalUncachedMetadata key
  let lru ← c.removeFromLocalUncachedLru key
  return { c with localUncachedMetadata := uncached, localUncachedLru := lru }

/-- The small LRU cache after a response or a write of an uncached key; returns the reward of the
key, `0` if it was not calculated again. -/
def updateLocalUncachedLru (edge : EdgeContext) (c : LocalCache) (key : Key) (value : Value)
    (isGetrsp isGlobalCached : Bool) : Option (LocalUncachedLru × Reward) :=
  if c.localUncachedLru.isKeyExist key then
    if isGetrsp then do
      let originalIsGlobalCached ← c.localUncachedLru.isGlobalCachedForExistingKey key
      if isGlobalCached ≠ originalIsGlobalCached then
        c.localUncachedLru.updateIsGlobalCachedForExistingKey edge key isGetrsp isGlobalCached
      else some (c.localUncachedLru, 0)
    else do
      let (lru, _) ← c.localUncachedLru.updateNoValueStatsForExistingKey edge key isGlobalCached
      let originalObjectSize ← lru.getObjectSize key
      lru.updateValueStatsForExistingKey edge key value (valueOfObjectSize key originalObjectSize)
  else
    c.localUncachedLru.addForNewKey c.maxBytesForLocalUncachedLru edge key value isGlobalCached

/-- The metadata of uncached keys after a response or a write of a key that is tracked there. -/
def updateLocalUncachedMetadata (edge : EdgeContext) (c : LocalCache) (key : Key) (value : Value)
    (isGetrsp isGlobalCached : Bool) : Option (CacheMetadataBase HomoKeyLevelMetadata) := do
  let originalObjectSize ← c.localUncachedMetadata.getObjectSize key
  if isGetrsp then
    let originalIsGlobalCached ← c.localUncachedMetadata.isGlobalCachedForExistingKey key
    if isGlobalCached ≠ originalIsGlobalCached then
      c.localUncachedMetadata.updateIsGlobalCachedForExistingKey edge key isGetrsp isGlobalCached
    else return c.localUncachedMetadata
  else
    let uncached ← c.localUncachedMetadata.updateNoValueStatsForExistingKey edge key false
      isGlobalCached
    uncached.updateValueStatsForExistingKey edge key value
      (valueOfObjectSize key originalObjectSize)

/-- A response or a write of a key that is not cached, with an object that could be cached. -/
def updateUncached (edge : EdgeContext) (c : LocalCache) (key : Key) (value : Value)
    (isGetrsp isGlobalCached : Bool) : Option LocalCache :=
  if c.localUncachedMetadata.isKeyExist key then do
    let uncached ← c.updateLocalUncachedMetadata edge key value isGetrsp isGlobalCached
    return { c with localUncachedMetadata := uncached }
  else do
    let (lru, lruReward) ← c.updateLocalUncachedLru edge key value isGetrsp isGlobalCached
    tryToMoveFromLocalUncachedLruToMetadata edge { c with localUncachedLru := lru } key lruReward

/-- A response or a write of a key. Returns whether the key is cached and whether its cached value
was replaced. -/
def updateLocalCache (edge : EdgeContext) (c : LocalCache) (key : Key) (value : Value)
    (isGetrsp isGlobalCached : Bool) : Option (LocalCache × Bool × Bool) :=
  match c.coveredCache.lookup key with
  | some originalValue =>
      if c.isValidObjsize key value then do
        let c ← c.updateCached edge key value originalValue isGetrsp
        return (c, true, true)
      else some (c, true, false)
  | none =>
      (if c.isValidObjsize key value then c.updateUncached edge key value isGetrsp isGlobalCached
      else c.detrackUncached key).map (·, false, false)

/-! ## Admissions and evictions -/

/-- Admit an object; nothing happens if its key is cached already. -/
def admitLocalCache (edge : EdgeContext) (c : LocalCache) (key : Key) (value : Value)
    (isNeighborCached : Bool) : Option (LocalCache × Bool) := do
  require (c.isValidObjsize key value = true)
  match c.coveredCache.lookup key with
  | some _ => return (c, true)
  | none =>
      let kvbytes ← uint64Add c.internalKvbytes (objectSize key value)
      let cached ← c.localCachedMetadata.addForNewKey none edge key value true isNeighborCached 1 1
      let uncached ← c.removeFromLocalUncachedMetadata key
      let lru ← c.removeFromLocalUncachedLru key
      return ({ c with
        coveredCache := c.coveredCache.insert key value
        internalKvbytes := kvbytes
        localCachedMetadata := cached
        localUncachedMetadata := uncached
        localUncachedLru := lru }, true)

/-- Evict a key; returns its value if it was cached. -/
def evictLocalCacheWithGivenKey (c : LocalCache) (key : Key) :
    Option (LocalCache × Option Value) :=
  match c.coveredCache.lookup key with
  | some value => do
      let cached ← c.localCachedMetadata.removeForExistingKey key
      require (c.isValidObjsize key value = true)
      return ({ c with
        coveredCache := c.coveredCache.erase key
        internalKvbytes := uint64Minus c.internalKvbytes (objectSize key value)
        localCachedMetadata := cached }, some value)
  | none => some (c, none)

/-- `updateIsNeighborCached_`: the flag of a key that is cached. -/
def updateIsNeighborCached (c : LocalCache) (key : Key) (isNeighborCached : Bool) :
    Option LocalCache :=
  if c.localCachedMetadata.isKeyExist key then do
    let cached ← c.localCachedMetadata.updateIsNeighborCachedForExistingKey key isNeighborCached
    return { c with localCachedMetadata := cached }
  else some c

/-- The local cache as a machine. -/
def step (c : LocalCache) : LocalCacheOperation → Option (LocalCache × LocalCacheResult)
  | .getLocalCache edge key isRedirected =>
      (c.getLocalCache edge key isRedirected).map fun r => (r.1, .value r.2)
  | .getLocalCacheP2p edge key redirectedReward =>
      (c.getLocalCacheP2p edge key redirectedReward).map fun r => (r.1, .value r.2)
  | .updateLocalCache edge key value isGetrsp isGlobalCached =>
      (c.updateLocalCache edge key value isGetrsp isGlobalCached).map fun r =>
        (r.1, .updated r.2.1 r.2.2)
  | .admitLocalCache edge key value isNeighborCached =>
      (c.admitLocalCache edge key value isNeighborCached).map fun r => (r.1, .admitted r.2)
  | .evictLocalCacheWithGivenKey key =>
      (c.evictLocalCacheWithGivenKey key).map fun r => (r.1, .value r.2)
  | .updateIsNeighborCached key isNeighborCached =>
      (c.updateIsNeighborCached key isNeighborCached).map (·, .done)

end LocalCache

end Covered.Cache
