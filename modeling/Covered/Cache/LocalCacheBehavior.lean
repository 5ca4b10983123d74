import Covered.Cache.LocalCache
import Covered.Cache.MetadataRepresentation
import Covered.Popularity.PopularityAggregator
import Covered.Victim.VictimCacheinfo

/-!
# What a local cache answers

Beside its operations a local cache answers questions about its metadata: its victims, the
popularity of an uncached key and its size. `request` is the cache as a machine with both.

The places of keys are not part of the answers. `SameAs` relates two caches whose containers stand
for the same keys, records and orders, in whatever places; they answer every sequence of requests in
the same way (`runs_iff`).
-/

set_option autoImplicit false

namespace Covered.Cache

open Common Lib Lib.Checked Lib.Execution Lib.Simulation Popularity Victim LocalCache
open KeyLevelMetadata

/-! ## Questions -/

/-- A question about the metadata. -/
inductive LocalCacheQuestion where
  | isLocalCached (key : Key)
  | getLocalSyncedVictimCacheinfos (peredgeSyncedVictimcnt : Nat)
  | getLocalCacheVictimKeys (requiredSize : Nat)
  | getCollectedPopularity (key : Key)
  | getSizeForCapacity
deriving DecidableEq

/-- What a local cache returns. -/
inductive LocalCacheAnswer where
  | result (result : LocalCacheResult)
  | isLocalCached (isLocalCached : Bool)
  | victims (victims : List VictimCacheinfo)
  | popularity (collectedPopularity : CollectedPopularity)
  | size (bytes : Nat)
deriving DecidableEq

namespace LocalCache

def isLocalCached (c : LocalCache) (key : Key) : Bool := (c.coveredCache.lookup key).isSome

/-- The cached object with the given rank by reward; there is none from the number of objects on. -/
def getVictimCacheinfo (c : LocalCache) (leastRewardRank : Nat) : Option (Option VictimCacheinfo) :=
  match c.localCachedMetadata.getLeastRewardKeyAndReward leastRewardRank with
  | none => some none
  | some (key, localReward) => do
      let victimObjectSize ← c.localCachedMetadata.getObjectSize key
      let metadata ← c.localCachedMetadata.getkeyLevelMetadata key
      let value ← c.coveredCache.lookup key
      require (victimObjectSize = objectSize key value)
      return some (.create key victimObjectSize metadata.base.localPopularity
        metadata.redirectedPopularity localReward metadata.redirectedRewardPopularity)

/-- The victims from a rank on, at most so many. -/
def collectSyncedVictims (c : LocalCache) : Nat → Nat → Option (List VictimCacheinfo)
  | 0, _ => some []
  | remaining + 1, rank => do
      match ← c.getVictimCacheinfo rank with
      | none => return []
      | some victim => do
          let rest ← c.collectSyncedVictims remaining (rank + 1)
          return victim :: rest

/-- `getLocalSyncedVictimCacheinfosFromLocalCache`: the victims that other edges are told. -/
def getLocalSyncedVictimCacheinfos (c : LocalCache) (peredgeSyncedVictimcnt : Nat) :
    Option (List VictimCacheinfo) := do
  let victims ← c.collectSyncedVictims peredgeSyncedVictimcnt 0
  require (∀ victim ∈ victims, c.capacityBytes > victim.objectSize)
  return victims

/-- Victims from a rank on until they have the required size together. The process ends if there are
no objects left; the rank grows with each pass, so the number of objects bounds the passes. -/
def collectVictimKeys (c : LocalCache) (requiredSize : Nat) : Nat → Nat → Nat →
    Option (List VictimCacheinfo)
  | 0, _, _ => none
  | fuel + 1, rank, total =>
      if total < requiredSize then do
        match ← c.getVictimCacheinfo rank with
        | none => none
        | some victim => do
            let rest ← c.collectVictimKeys requiredSize fuel (rank + 1)
              ((total + victim.objectSize) % uint64Limit)
            return victim :: rest
      else some []

/-- `getLocalCacheVictimKeys`: victims that make room for the required size. -/
def getLocalCacheVictimKeys (c : LocalCache) (requiredSize : Nat) :
    Option (List VictimCacheinfo) := do
  let victims ← c.collectVictimKeys requiredSize
    (c.localCachedMetadata.sortedRewardMultimap.toList.length + 1) 0 0
  require (∀ victim ∈ victims, c.capacityBytes > victim.objectSize)
  return victims

/-- `getCollectedPopularityFromLocalCache`: the popularity of a key with uncached metadata. -/
def getCollectedPopularity (c : LocalCache) (key : Key) : Option CollectedPopularity :=
  if c.localUncachedMetadata.isKeyExist key then do
    let objectSize ← c.localUncachedMetadata.getObjectSize key
    let metadata ← c.localUncachedMetadata.getkeyLevelMetadata key
    require (c.capacityBytes > objectSize)
    return ⟨true, metadata.base.localPopularity, objectSize⟩
  else some ⟨false, 0, 0⟩

/-- The bytes of the cache. -/
def getSizeForCapacity (c : LocalCache) : Option Nat := do
  let cachedSize ← c.localCachedMetadata.getSizeForCapacity true
  let total ← uint64Add c.internalKvbytes cachedSize
  let uncachedSize ← c.localUncachedMetadata.getSizeForCapacity false
  let total ← uint64Add total uncachedSize
  let lruSize ← c.localUncachedLru.getSizeForCapacity
  uint64Add total lruSize

def answer (c : LocalCache) : LocalCacheQuestion → Option LocalCacheAnswer
  | .isLocalCached key => some (.isLocalCached (c.isLocalCached key))
  | .getLocalSyncedVictimCacheinfos peredgeSyncedVictimcnt =>
      (c.getLocalSyncedVictimCacheinfos peredgeSyncedVictimcnt).map .victims
  | .getLocalCacheVictimKeys requiredSize =>
      (c.getLocalCacheVictimKeys requiredSize).map .victims
  | .getCollectedPopularity key => (c.getCollectedPopularity key).map .popularity
  | .getSizeForCapacity => c.getSizeForCapacity.map .size

/-- An operation or a question. -/
def request (c : LocalCache) :
    LocalCacheOperation ⊕ LocalCacheQuestion → Option (LocalCache × LocalCacheAnswer)
  | .inl o => (c.step o).map fun r => (r.1, .result r.2)
  | .inr q => (c.answer q).map fun a => (c, a)

end LocalCache

/-! ## Containers with the same content -/

section Containers

variable {T : Type} [KeyLevelMetadata T] {s s' : CacheMetadataBase T}

/-- The containers stand for the same tracked keys. -/
def CacheMetadataBase.SameAs (s s' : CacheMetadataBase T) : Prop :=
  ∃ v : TrackedKeys T, Represents s v ∧ Represents s' v

namespace CacheMetadataBase.SameAs

section Same

variable (h : SameAs s s')
include h

theorem symm : SameAs s' s := by
  obtain ⟨v, hs, hs'⟩ := h
  exact ⟨v, hs', hs⟩

theorem isKeyExist (key : Key) : s.isKeyExist key = s'.isKeyExist key := by
  obtain ⟨v, hs, hs'⟩ := h
  rw [Bool.eq_iff_iff, hs.exists_iff, hs'.exists_iff]

theorem getkeyLevelMetadata (key : Key) :
    s.getkeyLevelMetadata key = s'.getkeyLevelMetadata key := by
  obtain ⟨v, hs, hs'⟩ := h
  rw [hs.getkeyLevelMetadata, hs'.getkeyLevelMetadata]

theorem getObjectSize (key : Key) : s.getObjectSize key = s'.getObjectSize key := by
  rw [CacheMetadataBase.getObjectSize, h.getkeyLevelMetadata, CacheMetadataBase.getObjectSize]

theorem multimap : s.sortedRewardMultimap.toList = s'.sortedRewardMultimap.toList := by
  obtain ⟨v, hs, hs'⟩ := h
  rw [hs.multimap, hs'.multimap]

theorem getLeastRewardKeyAndReward (leastRewardRank : Nat) :
    s.getLeastRewardKeyAndReward leastRewardRank =
      s'.getLeastRewardKeyAndReward leastRewardRank := by
  rw [CacheMetadataBase.getLeastRewardKeyAndReward, h.multimap,
    CacheMetadataBase.getLeastRewardKeyAndReward]

theorem getSizeForCapacity (isLocalCachedMetadata : Bool) :
    s.getSizeForCapacity isLocalCachedMetadata = s'.getSizeForCapacity isLocalCachedMetadata := by
  obtain ⟨v, hs, hs'⟩ := h
  rw [hs.getSizeForCapacity, hs'.getSizeForCapacity]

/-- An access changes both in the same way. -/
theorem updateNoValueStatsForExistingKey (edge : EdgeContext) (key : Key)
    (isRedirected isGlobalCached : Bool) :
    Option.Rel SameAs (s.updateNoValueStatsForExistingKey edge key isRedirected isGlobalCached)
      (s'.updateNoValueStatsForExistingKey edge key isRedirected isGlobalCached) := by
  obtain ⟨v, hs, hs'⟩ := h
  have hkeeps : ∀ t t' : T, updateNoValueDynamicMetadata t isRedirected
      isGlobalCached 1 1 = some t' →
      getGroupId t' = getGroupId t :=
    fun _ _ ht => (noValue_keeps ht).1
  exact rel_join (hs.updateNoValueStats edge key hkeeps) (hs'.updateNoValueStats edge key hkeeps)

theorem updateNoValueStatsForExistingKeyP2p (edge : EdgeContext) (key : Key)
    (isRedirected isGlobalCached : Bool) (redirectedReward : Nat) :
    Option.Rel SameAs
      (s.updateNoValueStatsForExistingKeyP2p edge key isRedirected isGlobalCached redirectedReward)
      (s'.updateNoValueStatsForExistingKeyP2p edge key isRedirected isGlobalCached
        redirectedReward) := by
  refine rel_require_bind Iff.rfl fun _ => ?_
  obtain ⟨v, hs, hs'⟩ := h
  have hkeeps : ∀ t t' : T, updateNoValueDynamicMetadata t isRedirected
      isGlobalCached 0 redirectedReward = some t' →
      getGroupId t' = getGroupId t :=
    fun _ _ ht => (noValue_keeps ht).1
  exact rel_join (hs.updateNoValueStats edge key hkeeps) (hs'.updateNoValueStats edge key hkeeps)

theorem updateValueStatsForExistingKey (edge : EdgeContext) (key : Key)
    (value originalValue : Value) :
    Option.Rel SameAs (s.updateValueStatsForExistingKey edge key value originalValue)
      (s'.updateValueStatsForExistingKey edge key value originalValue) := by
  obtain ⟨v, hs, hs'⟩ := h
  exact rel_join (hs.updateValueStatsForExistingKey edge key value originalValue)
    (hs'.updateValueStatsForExistingKey edge key value originalValue)

theorem removeForExistingKey (key : Key) :
    Option.Rel SameAs (s.removeForExistingKey key) (s'.removeForExistingKey key) := by
  obtain ⟨v, hs, hs'⟩ := h
  exact rel_join (hs.removeForExistingKey key) (hs'.removeForExistingKey key)

theorem addForNewKey (maxBytes : Option Nat) (edge : EdgeContext) (key : Key) (value : Value)
    (isGlobalCached isNeighborCached : Bool) (added addedRedirected : Nat) :
    Option.Rel SameAs
      (s.addForNewKey maxBytes edge key value isGlobalCached isNeighborCached added addedRedirected)
      (s'.addForNewKey maxBytes edge key value isGlobalCached isNeighborCached added
        addedRedirected) := by
  obtain ⟨v, hs, hs'⟩ := h
  exact rel_join
    (hs.addForNewKey maxBytes edge key value isGlobalCached isNeighborCached added addedRedirected)
    (hs'.addForNewKey maxBytes edge key value isGlobalCached isNeighborCached added addedRedirected)

end Same

theorem updateIsNeighborCachedForExistingKey {s s' : CacheMetadataBase HeteroKeyLevelMetadata}
    (h : SameAs s s') (key : Key) (isNeighborCached : Bool) :
    Option.Rel SameAs (s.updateIsNeighborCachedForExistingKey key isNeighborCached)
      (s'.updateIsNeighborCachedForExistingKey key isNeighborCached) := by
  obtain ⟨v, hs, hs'⟩ := h
  exact rel_join (hs.updateIsNeighborCached key isNeighborCached)
    (hs'.updateIsNeighborCached key isNeighborCached)

theorem isGlobalCachedForExistingKey {s s' : CacheMetadataBase HomoKeyLevelMetadata}
    (h : SameAs s s') (key : Key) :
    s.isGlobalCachedForExistingKey key = s'.isGlobalCachedForExistingKey key := by
  rw [CacheMetadataBase.isGlobalCachedForExistingKey, h.getkeyLevelMetadata,
    CacheMetadataBase.isGlobalCachedForExistingKey]

theorem updateIsGlobalCachedForExistingKey {s s' : CacheMetadataBase HomoKeyLevelMetadata}
    (h : SameAs s s') (edge : EdgeContext) (key : Key) (isGetrsp isGlobalCached : Bool) :
    Option.Rel SameAs (s.updateIsGlobalCachedForExistingKey edge key isGetrsp isGlobalCached)
      (s'.updateIsGlobalCachedForExistingKey edge key isGetrsp isGlobalCached) := by
  obtain ⟨v, hs, hs'⟩ := h
  exact rel_join (hs.updateIsGlobalCached edge key isGetrsp isGlobalCached)
    (hs'.updateIsGlobalCached edge key isGetrsp isGlobalCached)

end CacheMetadataBase.SameAs

end Containers

/-- The caches stand for the same records. -/
def LocalUncachedLru.SameAs (s s' : LocalUncachedLru) : Prop :=
  ∃ w : LruRecords HomoKeyLevelMetadata, s.Represents w ∧ s'.Represents w

namespace LocalUncachedLru.SameAs

variable {s s' : LocalUncachedLru}

theorem symm (h : SameAs s s') : SameAs s' s := by
  obtain ⟨w, hs, hs'⟩ := h
  exact ⟨w, hs', hs⟩

theorem isKeyExist (h : SameAs s s') (key : Key) : s.isKeyExist key = s'.isKeyExist key := by
  obtain ⟨w, hs, hs'⟩ := h
  rw [Bool.eq_iff_iff, hs.exists_iff, hs'.exists_iff]

theorem getkeyLevelMetadata (h : SameAs s s') (key : Key) :
    s.getkeyLevelMetadata key = s'.getkeyLevelMetadata key := by
  obtain ⟨w, hs, hs'⟩ := h
  rw [hs.getkeyLevelMetadata, hs'.getkeyLevelMetadata]

theorem getObjectSize (h : SameAs s s') (key : Key) :
    s.getObjectSize key = s'.getObjectSize key := by
  rw [LocalUncachedLru.getObjectSize, h.getkeyLevelMetadata, LocalUncachedLru.getObjectSize]

theorem isGlobalCachedForExistingKey (h : SameAs s s') (key : Key) :
    s.isGlobalCachedForExistingKey key = s'.isGlobalCachedForExistingKey key := by
  rw [LocalUncachedLru.isGlobalCachedForExistingKey, h.getkeyLevelMetadata,
    LocalUncachedLru.isGlobalCachedForExistingKey]

theorem getSizeForCapacity (h : SameAs s s') : s.getSizeForCapacity = s'.getSizeForCapacity := by
  obtain ⟨w, hs, hs'⟩ := h
  rw [hs.getSizeForCapacity, hs'.getSizeForCapacity]

/-- Functions that return something beside the next cache return the same. -/
theorem rel_output {B : Type} {p p' : Option (LocalUncachedLru × B)}
    {q : Option (LruRecords HomoKeyLevelMetadata × B)}
    (h : Option.Rel (RelOutput Represents) p q) (h' : Option.Rel (RelOutput Represents) p' q) :
    Option.Rel (RelOutput SameAs) p p' :=
  rel_mono (rel_join h h') fun _ _ ⟨r, hr, hr'⟩ => ⟨⟨r.1, hr.1, hr'.1⟩, hr.2.trans hr'.2.symm⟩

theorem updateNoValueStatsForExistingKey (h : SameAs s s') (edge : EdgeContext) (key : Key)
    (isGlobalCached : Bool) :
    Option.Rel (RelOutput SameAs) (s.updateNoValueStatsForExistingKey edge key isGlobalCached)
      (s'.updateNoValueStatsForExistingKey edge key isGlobalCached) := by
  obtain ⟨w, hs, hs'⟩ := h
  exact rel_output (hs.updateNoValueStats edge key isGlobalCached)
    (hs'.updateNoValueStats edge key isGlobalCached)

theorem updateValueStatsForExistingKey (h : SameAs s s') (edge : EdgeContext) (key : Key)
    (value originalValue : Value) :
    Option.Rel (RelOutput SameAs)
      (s.updateValueStatsForExistingKey edge key value originalValue)
      (s'.updateValueStatsForExistingKey edge key value originalValue) := by
  obtain ⟨w, hs, hs'⟩ := h
  exact rel_output (hs.updateValueStats edge key value originalValue)
    (hs'.updateValueStats edge key value originalValue)

theorem updateIsGlobalCachedForExistingKey (h : SameAs s s') (edge : EdgeContext) (key : Key)
    (isGetrsp isGlobalCached : Bool) :
    Option.Rel (RelOutput SameAs)
      (s.updateIsGlobalCachedForExistingKey edge key isGetrsp isGlobalCached)
      (s'.updateIsGlobalCachedForExistingKey edge key isGetrsp isGlobalCached) := by
  obtain ⟨w, hs, hs'⟩ := h
  exact rel_output (hs.updateIsGlobalCached edge key isGetrsp isGlobalCached)
    (hs'.updateIsGlobalCached edge key isGetrsp isGlobalCached)

theorem removeForExistingKey (h : SameAs s s') (key : Key) :
    Option.Rel (RelOutput SameAs) (s.removeForExistingKey key) (s'.removeForExistingKey key) := by
  obtain ⟨w, hs, hs'⟩ := h
  exact rel_output (hs.removeForExistingKey key) (hs'.removeForExistingKey key)

theorem addForNewKey (h : SameAs s s') (maxBytes : Nat) (edge : EdgeContext) (key : Key)
    (value : Value) (isGlobalCached : Bool) :
    Option.Rel (RelOutput SameAs) (s.addForNewKey maxBytes edge key value isGlobalCached)
      (s'.addForNewKey maxBytes edge key value isGlobalCached) := by
  obtain ⟨w, hs, hs'⟩ := h
  exact rel_output (hs.addForNewKey maxBytes edge key value isGlobalCached)
    (hs'.addForNewKey maxBytes edge key value isGlobalCached)

end LocalUncachedLru.SameAs

/-! ## Caches with the same content -/

namespace LocalCache

/-- The caches have the same bounds and objects, and their containers stand for the same keys. -/
structure SameAs (c c' : LocalCache) : Prop where
  capacityBytes : c.capacityBytes = c'.capacityBytes
  uncachedBytes : c.maxBytesForUncachedObjects = c'.maxBytesForUncachedObjects
  lruBytes : c.maxBytesForLocalUncachedLru = c'.maxBytesForLocalUncachedLru
  store : ∀ key, c.coveredCache.lookup key = c'.coveredCache.lookup key
  kvbytes : c.internalKvbytes = c'.internalKvbytes
  cached : c.localCachedMetadata.SameAs c'.localCachedMetadata
  uncached : c.localUncachedMetadata.SameAs c'.localUncachedMetadata
  lru : c.localUncachedLru.SameAs c'.localUncachedLru

namespace SameAs

variable {c c' : LocalCache}

section Same

variable (h : SameAs c c')
include h

theorem symm : SameAs c' c where
  capacityBytes := h.capacityBytes.symm
  uncachedBytes := h.uncachedBytes.symm
  lruBytes := h.lruBytes.symm
  store key := (h.store key).symm
  kvbytes := h.kvbytes.symm
  cached := h.cached.symm
  uncached := h.uncached.symm
  lru := h.lru.symm

theorem withCached {s s' : CacheMetadataBase HeteroKeyLevelMetadata} (hs : s.SameAs s') :
    SameAs { c with localCachedMetadata := s } { c' with localCachedMetadata := s' } :=
  { h with cached := hs }

theorem withUncached {s s' : CacheMetadataBase HomoKeyLevelMetadata} (hs : s.SameAs s') :
    SameAs { c with localUncachedMetadata := s } { c' with localUncachedMetadata := s' } :=
  { h with uncached := hs }

theorem withLru {s s' : LocalUncachedLru} (hs : s.SameAs s') :
    SameAs { c with localUncachedLru := s } { c' with localUncachedLru := s' } :=
  { h with lru := hs }

theorem isValidObjsize (key : Key) (value : Value) :
    c.isValidObjsize key value = c'.isValidObjsize key value := by
  rw [LocalCache.isValidObjsize, h.capacityBytes, LocalCache.isValidObjsize]

theorem exceedsLeastReward (reward : Reward) :
    c.exceedsLeastReward reward = c'.exceedsLeastReward reward := by
  rw [LocalCache.exceedsLeastReward, h.uncached.getLeastRewardKeyAndReward,
    LocalCache.exceedsLeastReward]

/-! ### Operations -/

theorem tryToMoveFromLocalUncachedLruToMetadata (edge : EdgeContext) (key : Key) (reward : Reward) :
    Option.Rel SameAs (tryToMoveFromLocalUncachedLruToMetadata edge c key reward)
      (tryToMoveFromLocalUncachedLruToMetadata edge c' key reward) := by
  rw [LocalCache.tryToMoveFromLocalUncachedLruToMetadata, h.exceedsLeastReward,
    LocalCache.tryToMoveFromLocalUncachedLruToMetadata]
  split
  · exact .some h
  · split
    · rw [h.lru.getObjectSize]
      refine rel_bind_same fun lruObjectSize _ => ?_
      refine rel_bind (h.lru.removeForExistingKey key) ?_
      rintro ⟨lru, t⟩ ⟨lru', t'⟩ ⟨hlru, ht⟩
      cases ht
      have hadd := h.uncached.addForNewKey (some c.maxBytesForUncachedObjects) edge key
        (valueOfObjectSize key lruObjectSize) t.isGlobalCached false t.base.localFrequency 1
      nth_rewrite 2 [h.uncachedBytes] at hadd
      refine rel_bind hadd fun s s' hs => ?_
      exact .some ((h.withLru hlru).withUncached hs)
    · exact .some h

theorem getUncached (edge : EdgeContext) (key : Key) :
    Option.Rel SameAs (getUncached edge c key) (getUncached edge c' key) := by
  rw [LocalCache.getUncached, h.uncached.isKeyExist, h.lru.isKeyExist, LocalCache.getUncached]
  split
  · rw [h.uncached.isGlobalCachedForExistingKey]
    refine rel_bind_same fun flag _ => ?_
    refine rel_bind (h.uncached.updateNoValueStatsForExistingKey edge key false flag) ?_
    exact fun s s' hs => .some (h.withUncached hs)
  · split
    · rw [h.lru.isGlobalCachedForExistingKey]
      refine rel_bind_same fun flag _ => ?_
      refine rel_bind (h.lru.updateNoValueStatsForExistingKey edge key flag) ?_
      rintro ⟨lru, r⟩ ⟨lru', r'⟩ ⟨hlru, hr⟩
      cases hr
      exact (h.withLru hlru).tryToMoveFromLocalUncachedLruToMetadata edge key r
    · exact .some h

theorem getLocalCache (edge : EdgeContext) (key : Key) (isRedirected : Bool) :
    Option.Rel (RelOutput SameAs) (getLocalCache edge c key isRedirected)
      (getLocalCache edge c' key isRedirected) := by
  rw [LocalCache.getLocalCache, h.store, LocalCache.getLocalCache]
  split
  · refine rel_bind (h.cached.updateNoValueStatsForExistingKey edge key isRedirected true) ?_
    intro s s' hs
    rw [h.isValidObjsize]
    exact rel_require_bind Iff.rfl fun _ => .some ⟨h.withCached hs, rfl⟩
  · refine rel_map_output ?_ none
    split
    · exact .some h
    · exact h.getUncached edge key

theorem getLocalCacheP2p (edge : EdgeContext) (key : Key) (redirectedReward : Nat) :
    Option.Rel (RelOutput SameAs) (getLocalCacheP2p edge c key redirectedReward)
      (getLocalCacheP2p edge c' key redirectedReward) := by
  rw [LocalCache.getLocalCacheP2p, h.store, LocalCache.getLocalCacheP2p]
  split
  · refine rel_bind
      (h.cached.updateNoValueStatsForExistingKeyP2p edge key true true redirectedReward) ?_
    intro s s' hs
    rw [h.isValidObjsize]
    exact rel_require_bind Iff.rfl fun _ => .some ⟨h.withCached hs, rfl⟩
  · exact .some ⟨h, rfl⟩

theorem insertObject (key : Key) (value : Value) (k : Key) :
    (c.coveredCache.insert key value).lookup k = (c'.coveredCache.insert key value).lookup k := by
  rw [UnorderedMap.lookup_insert_eq, h.store, UnorderedMap.lookup_insert_eq]

theorem updateCached (edge : EdgeContext) (key : Key) (value originalValue : Value)
    (isGetrsp : Bool) :
    Option.Rel SameAs (updateCached edge c key value originalValue isGetrsp)
      (updateCached edge c' key value originalValue isGetrsp) := by
  have hbytes : c.updatedKvbytes originalValue value = c'.updatedKvbytes originalValue value := by
    rw [updatedKvbytes, h.kvbytes, updatedKvbytes]
  rw [LocalCache.updateCached, hbytes, LocalCache.updateCached]
  refine rel_bind_same fun kvbytes _ => ?_
  refine rel_bind (R := CacheMetadataBase.SameAs) ?_ fun s s' hs => .some ?_
  · rw [updateLocalCachedMetadata, updateLocalCachedMetadata]
    split
    · exact h.cached.updateValueStatsForExistingKey edge key value originalValue
    · refine rel_bind (h.cached.updateNoValueStatsForExistingKey edge key false true) ?_
      exact fun s s' hs => hs.updateValueStatsForExistingKey edge key value originalValue
  · exact { h with store := h.insertObject key value, kvbytes := rfl, cached := hs }

theorem removeFromLocalUncachedMetadata (key : Key) :
    Option.Rel CacheMetadataBase.SameAs (c.removeFromLocalUncachedMetadata key)
      (c'.removeFromLocalUncachedMetadata key) := by
  rw [LocalCache.removeFromLocalUncachedMetadata, h.uncached.isKeyExist,
    LocalCache.removeFromLocalUncachedMetadata]
  split
  · exact h.uncached.removeForExistingKey key
  · exact .some h.uncached

theorem removeFromLocalUncachedLru (key : Key) :
    Option.Rel LocalUncachedLru.SameAs (c.removeFromLocalUncachedLru key)
      (c'.removeFromLocalUncachedLru key) := by
  rw [LocalCache.removeFromLocalUncachedLru, h.lru.isKeyExist,
    LocalCache.removeFromLocalUncachedLru]
  split
  · refine rel_map (h.lru.removeForExistingKey key) ?_
    exact fun _ _ hr => hr.1
  · exact .some h.lru

theorem detrackUncached (key : Key) :
    Option.Rel SameAs (c.detrackUncached key) (c'.detrackUncached key) := by
  refine rel_bind (h.removeFromLocalUncachedMetadata key) fun s s' hs => ?_
  refine rel_bind (h.removeFromLocalUncachedLru key) fun lru lru' hlru => ?_
  exact .some ((h.withUncached hs).withLru hlru)

theorem updateLocalUncachedLru (edge : EdgeContext) (key : Key) (value : Value)
    (isGetrsp isGlobalCached : Bool) :
    Option.Rel (RelOutput LocalUncachedLru.SameAs)
      (updateLocalUncachedLru edge c key value isGetrsp isGlobalCached)
      (updateLocalUncachedLru edge c' key value isGetrsp isGlobalCached) := by
  rw [LocalCache.updateLocalUncachedLru, h.lru.isKeyExist, h.lruBytes,
    LocalCache.updateLocalUncachedLru]
  split
  · split
    · rw [h.lru.isGlobalCachedForExistingKey]
      refine rel_bind_same fun flag _ => ?_
      split
      · exact h.lru.updateIsGlobalCachedForExistingKey edge key isGetrsp isGlobalCached
      · exact .some ⟨h.lru, rfl⟩
    · refine rel_bind (h.lru.updateNoValueStatsForExistingKey edge key isGlobalCached) ?_
      rintro ⟨lru, r⟩ ⟨lru', r'⟩ ⟨hlru, -⟩
      have hsize : lru.getObjectSize key = lru'.getObjectSize key := hlru.getObjectSize key
      simp only [hsize]
      refine rel_bind_same fun size _ => ?_
      exact hlru.updateValueStatsForExistingKey edge key value _
  · exact h.lru.addForNewKey _ edge key value isGlobalCached

theorem updateLocalUncachedMetadata (edge : EdgeContext) (key : Key) (value : Value)
    (isGetrsp isGlobalCached : Bool) :
    Option.Rel CacheMetadataBase.SameAs
      (updateLocalUncachedMetadata edge c key value isGetrsp isGlobalCached)
      (updateLocalUncachedMetadata edge c' key value isGetrsp isGlobalCached) := by
  rw [LocalCache.updateLocalUncachedMetadata, h.uncached.getObjectSize,
    LocalCache.updateLocalUncachedMetadata]
  refine rel_bind_same fun size _ => ?_
  split
  · rw [h.uncached.isGlobalCachedForExistingKey]
    refine rel_bind_same fun flag _ => ?_
    split
    · exact h.uncached.updateIsGlobalCachedForExistingKey edge key isGetrsp isGlobalCached
    · exact .some h.uncached
  · refine rel_bind
      (h.uncached.updateNoValueStatsForExistingKey edge key false isGlobalCached) ?_
    exact fun s s' hs => hs.updateValueStatsForExistingKey edge key value _

theorem updateUncached (edge : EdgeContext) (key : Key) (value : Value)
    (isGetrsp isGlobalCached : Bool) :
    Option.Rel SameAs (updateUncached edge c key value isGetrsp isGlobalCached)
      (updateUncached edge c' key value isGetrsp isGlobalCached) := by
  rw [LocalCache.updateUncached, h.uncached.isKeyExist, LocalCache.updateUncached]
  split
  · refine rel_bind
      (h.updateLocalUncachedMetadata edge key value isGetrsp isGlobalCached) ?_
    exact fun s s' hs => .some (h.withUncached hs)
  · refine rel_bind (h.updateLocalUncachedLru edge key value isGetrsp isGlobalCached) ?_
    rintro ⟨lru, r⟩ ⟨lru', r'⟩ ⟨hlru, hr⟩
    cases hr
    exact (h.withLru hlru).tryToMoveFromLocalUncachedLruToMetadata edge key r

theorem updateLocalCache (edge : EdgeContext) (key : Key) (value : Value)
    (isGetrsp isGlobalCached : Bool) :
    Option.Rel (RelOutput SameAs)
      (updateLocalCache edge c key value isGetrsp isGlobalCached)
      (updateLocalCache edge c' key value isGetrsp isGlobalCached) := by
  rw [LocalCache.updateLocalCache, h.store, h.isValidObjsize, LocalCache.updateLocalCache]
  split
  · split
    · refine rel_bind (h.updateCached edge key value _ isGetrsp) ?_
      exact fun d d' hd => .some ⟨hd, rfl⟩
    · exact .some ⟨h, rfl⟩
  · refine rel_map_output ?_ _
    split
    · exact h.updateUncached edge key value isGetrsp isGlobalCached
    · exact h.detrackUncached key

theorem admitLocalCache (edge : EdgeContext) (key : Key) (value : Value) (isNeighborCached : Bool) :
    Option.Rel (RelOutput SameAs)
      (admitLocalCache edge c key value isNeighborCached)
      (admitLocalCache edge c' key value isNeighborCached) := by
  rw [LocalCache.admitLocalCache, h.isValidObjsize, h.store, h.kvbytes,
    LocalCache.admitLocalCache]
  refine rel_require_bind Iff.rfl fun _ => ?_
  split
  · exact .some ⟨h, rfl⟩
  · refine rel_bind_same fun kvbytes _ => ?_
    refine rel_bind (h.cached.addForNewKey none edge key value true isNeighborCached 1 1) ?_
    intro s s' hs
    refine rel_bind (h.removeFromLocalUncachedMetadata key) fun u u' hu => ?_
    refine rel_bind (h.removeFromLocalUncachedLru key) fun lru lru' hlru => ?_
    have hnew := ((h.withCached hs).withUncached hu).withLru hlru
    exact .some ⟨{ hnew with store := h.insertObject key value, kvbytes := rfl }, rfl⟩

theorem evictLocalCacheWithGivenKey (key : Key) :
    Option.Rel (RelOutput SameAs) (c.evictLocalCacheWithGivenKey key)
      (c'.evictLocalCacheWithGivenKey key) := by
  rw [LocalCache.evictLocalCacheWithGivenKey, h.store, LocalCache.evictLocalCacheWithGivenKey]
  split
  · refine rel_bind (h.cached.removeForExistingKey key) fun s s' hs => ?_
    rw [h.isValidObjsize, h.kvbytes]
    refine rel_require_bind Iff.rfl fun _ => .some ⟨?_, rfl⟩
    refine { h.withCached hs with store := fun k => ?_, kvbytes := rfl }
    rw [UnorderedMap.lookup_erase_eq, h.store, UnorderedMap.lookup_erase_eq]
  · exact .some ⟨h, rfl⟩

theorem updateIsNeighborCached (key : Key) (isNeighborCached : Bool) :
    Option.Rel SameAs (c.updateIsNeighborCached key isNeighborCached)
      (c'.updateIsNeighborCached key isNeighborCached) := by
  rw [LocalCache.updateIsNeighborCached, h.cached.isKeyExist, LocalCache.updateIsNeighborCached]
  split
  · refine rel_bind (h.cached.updateIsNeighborCachedForExistingKey key isNeighborCached) ?_
    exact fun s s' hs => .some (h.withCached hs)
  · exact .some h

/-- An operation changes both in the same way and returns the same. -/
theorem step (o : LocalCacheOperation) : Option.Rel (RelOutput SameAs) (c.step o) (c'.step o) := by
  cases o with
  | getLocalCache edge key isRedirected =>
    exact rel_output_map (h.getLocalCache edge key isRedirected) _
  | getLocalCacheP2p edge key redirectedReward =>
    exact rel_output_map (h.getLocalCacheP2p edge key redirectedReward) _
  | updateLocalCache edge key value isGetrsp isGlobalCached =>
    exact rel_output_map (h.updateLocalCache edge key value isGetrsp isGlobalCached)
      fun r => LocalCacheResult.updated r.1 r.2
  | admitLocalCache edge key value isNeighborCached =>
    exact rel_output_map (h.admitLocalCache edge key value isNeighborCached) _
  | evictLocalCacheWithGivenKey key =>
    exact rel_output_map (h.evictLocalCacheWithGivenKey key) _
  | updateIsNeighborCached key isNeighborCached =>
    exact rel_map_output (h.updateIsNeighborCached key isNeighborCached) _

/-! ### Questions -/

theorem getVictimCacheinfo (rank : Nat) :
    c.getVictimCacheinfo rank = c'.getVictimCacheinfo rank := by
  simp only [LocalCache.getVictimCacheinfo, h.cached.getLeastRewardKeyAndReward,
    h.cached.getObjectSize, h.cached.getkeyLevelMetadata, h.store]

theorem collectSyncedVictims (remaining rank : Nat) :
    c.collectSyncedVictims remaining rank = c'.collectSyncedVictims remaining rank := by
  induction remaining generalizing rank with
  | zero => rfl
  | succ remaining ih =>
    simp only [LocalCache.collectSyncedVictims, h.getVictimCacheinfo, ih]

theorem collectVictimKeys (requiredSize fuel rank total : Nat) :
    c.collectVictimKeys requiredSize fuel rank total =
      c'.collectVictimKeys requiredSize fuel rank total := by
  induction fuel generalizing rank total with
  | zero => rfl
  | succ fuel ih => simp only [LocalCache.collectVictimKeys, h.getVictimCacheinfo, ih]

theorem getCollectedPopularity (key : Key) :
    c.getCollectedPopularity key = c'.getCollectedPopularity key := by
  simp only [LocalCache.getCollectedPopularity, h.uncached.isKeyExist, h.uncached.getObjectSize,
    h.uncached.getkeyLevelMetadata, h.capacityBytes]

theorem getSizeForCapacity : c.getSizeForCapacity = c'.getSizeForCapacity := by
  simp only [LocalCache.getSizeForCapacity, h.cached.getSizeForCapacity, h.kvbytes,
    h.uncached.getSizeForCapacity, h.lru.getSizeForCapacity]

theorem answer (q : LocalCacheQuestion) : c.answer q = c'.answer q := by
  cases q with
  | isLocalCached key => simp only [LocalCache.answer, isLocalCached, h.store]
  | getLocalSyncedVictimCacheinfos peredgeSyncedVictimcnt =>
    simp only [LocalCache.answer, getLocalSyncedVictimCacheinfos, h.collectSyncedVictims,
      h.capacityBytes]
  | getLocalCacheVictimKeys requiredSize =>
    simp only [LocalCache.answer, getLocalCacheVictimKeys, h.collectVictimKeys, h.capacityBytes,
      h.cached.multimap]
  | getCollectedPopularity key => simp only [LocalCache.answer, h.getCollectedPopularity]
  | getSizeForCapacity => simp only [LocalCache.answer, h.getSizeForCapacity]

theorem request (r : LocalCacheOperation ⊕ LocalCacheQuestion) :
    Option.Rel (RelOutput SameAs) (c.request r) (c'.request r) := by
  cases r with
  | inl o => exact rel_output_map (h.step o) _
  | inr q =>
    rw [LocalCache.request, h.answer, LocalCache.request]
    cases c'.answer q with
    | none => exact .none
    | some a => exact .some ⟨h, rfl⟩

/-- The caches answer every sequence of requests in the same way. -/
theorem runs_iff (tr : List ((LocalCacheOperation ⊕ LocalCacheQuestion) × LocalCacheAnswer)) :
    (∃ d, Runs LocalCache.request anyAction c tr d) ↔
      ∃ d', Runs LocalCache.request anyAction c' tr d' := by
  have hone : ∀ {c c' d : LocalCache}, SameAs c c' → Runs LocalCache.request anyAction c tr d →
      ∃ d', Runs LocalCache.request anyAction c' tr d' := by
    intro c c' d h hrun
    obtain ⟨d', hrun', -⟩ := runs_simulated (fun _ _ r hsame => hsame.request r)
      (fun _ _ _ _ _ => trivial) hrun h
    exact ⟨d', hrun'⟩
  constructor
  · rintro ⟨d, hrun⟩
    exact hone h hrun
  · rintro ⟨d, hrun⟩
    exact hone h.symm hrun

end Same

end SameAs

end LocalCache

end Covered.Cache
