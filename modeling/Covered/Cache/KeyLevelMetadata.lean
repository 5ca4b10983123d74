import Covered.Cache.CacheWrapper

/-!
# Metadata of one key and of one group of keys

The local caches of COVERED keep a record for each key they track. Its base has the group of the
key, the number of local requests, the object size and the popularity that follows from the two.
The record of a cached key (`HeteroKeyLevelMetadata`) also counts the redirected requests and has
the flag for copies at other edges; the record of an uncached key (`HomoKeyLevelMetadata`) has the
flag for copies anywhere. Keys are grouped in the order in which they come, and a group only counts
its keys, since object sizes are tracked for each key.

`KeyLevelMetadata` is what the containers of the records rely on: the two record types are its
instances. Popularities and rewards are rounded after each operation of their arithmetic, request
counts are unsigned 32-bit numbers.
-/

set_option autoImplicit false

namespace Covered.Cache

open Common Lib Lib.Checked

/-- Number of values of an unsigned 32-bit integer. -/
def uint32Limit : Nat := 2 ^ 32

/-- Most keys in a group, `COVERED_PERGROUP_MAXKEYCNT`. -/
def coveredPergroupMaxkeycnt : Nat := 10

/-! ## Groups -/

/-- The number of keys in a group. -/
structure GroupLevelMetadata where
  objectCnt : Nat := 0
deriving DecidableEq, Repr

/-- The group of the next new key: the current one, or a new one when that has had its keys. -/
def assignGroup (curGroupId curGroupKeycnt : Nat) : Nat × Nat :=
  if curGroupKeycnt + 1 > coveredPergroupMaxkeycnt then ((curGroupId + 1) % uint32Limit, 1)
  else (curGroupId, curGroupKeycnt + 1)

namespace GroupLevelMetadata

def updateForNewlyGrouped (g : GroupLevelMetadata) : GroupLevelMetadata := ⟨g.objectCnt + 1⟩

def updateValueStatsForInGroupKey (g : GroupLevelMetadata) : Option GroupLevelMetadata := do
  require (g.objectCnt > 0)
  return g

/-- Take a key out of the group; returns whether the group is empty then. -/
def updateForDegrouped (g : GroupLevelMetadata) : GroupLevelMetadata × Bool :=
  let objectCnt := g.objectCnt - 1
  (⟨objectCnt⟩, decide (objectCnt = 0))

/-- The bytes of the counter. -/
def getSizeForCapacity : Nat := 4

end GroupLevelMetadata

/-! ## Rewards -/

/-- Requests for each byte of the object; an object without bytes aborts. -/
def calculatePopularity (r : Rounding) (frequency objectSize : Nat) : Option Popularity := do
  require (objectSize ≠ 0)
  return r (r frequency / r objectSize)

/-- The weights of the hits that the edge learns from latencies. -/
structure WeightInfo where
  localHitWeight : ℚ
  cooperativeHitWeight : ℚ
deriving DecidableEq, Repr

/-- What an operation reads from its edge: the weights, whether requests follow the peer-to-peer
mode of redirection, and how the numbers of its machine are rounded. -/
structure EdgeContext where
  weights : WeightInfo
  isP2pGlobalMode : Bool := false
  round : Rounding := .exact

/-- What the eviction of a cached object costs: all its hits if no other edge has a copy, otherwise
the advantage of local over redirected hits. -/
def calcLocalCachedReward (r : Rounding) (w : WeightInfo)
    (localCachedPopularity redirectedCachedPopularity : Popularity) (isLastCopies : Bool) :
    Reward :=
  if isLastCopies then
    r (r (w.localHitWeight * localCachedPopularity) +
      r (w.cooperativeHitWeight * redirectedCachedPopularity))
  else r (popularityNonegMinus r w.localHitWeight w.cooperativeHitWeight * localCachedPopularity)

/-- What the admission of an uncached object brings. -/
def calcLocalUncachedReward (r : Rounding) (w : WeightInfo) (localUncachedPopularity : Popularity)
    (isGlobalCached : Bool) (redirectedUncachedPopularity : Popularity) : Reward :=
  if isGlobalCached then
    r (popularityNonegMinus r w.localHitWeight w.cooperativeHitWeight * localUncachedPopularity)
  else
    r (r (w.localHitWeight * localUncachedPopularity) +
      r (w.cooperativeHitWeight * redirectedUncachedPopularity))

/-! ## Keys -/

/-- What cached and uncached keys have in common. -/
structure KeyLevelMetadataBase where
  groupId : Nat
  localFrequency : Nat := 0
  objectSize : Nat := 0
  localPopularity : Popularity := 0
deriving DecidableEq, Repr

namespace KeyLevelMetadataBase

/-- Count local requests. -/
def updateNoValueDynamicMetadata (m : KeyLevelMetadataBase) (addedLocalFrequency : Nat) :
    KeyLevelMetadataBase :=
  { m with localFrequency := (m.localFrequency + addedLocalFrequency) % uint32Limit }

/-- Replace the object size, which has to be the one that the caller believes it is. -/
def updateValueDynamicMetadata (m : KeyLevelMetadataBase)
    (objectSize originalObjectSize : Nat) : Option KeyLevelMetadataBase := do
  require (m.objectSize = originalObjectSize)
  return { m with objectSize := objectSize }

/-- The popularity of the local requests. -/
def calculateLocalPopularity (m : KeyLevelMetadataBase) (edge : EdgeContext) :
    Option KeyLevelMetadataBase := do
  let popularity ← calculatePopularity edge.round m.localFrequency m.objectSize
  return { m with localPopularity := popularity }

def getSizeForCapacity : Nat := 16

end KeyLevelMetadataBase

/-- The record of a cached key. -/
structure HeteroKeyLevelMetadata where
  base : KeyLevelMetadataBase
  redirectedFrequency : Nat := 0
  p2pRedirectedRewardFreq : Nat := 0
  redirectedPopularity : Popularity := 0
  redirectedRewardPopularity : Popularity := 0
  isNeighborCached : Bool
deriving DecidableEq, Repr

/-- The record of an uncached key. -/
structure HomoKeyLevelMetadata where
  base : KeyLevelMetadataBase
  isGlobalCached : Bool := true
deriving DecidableEq, Repr

namespace HeteroKeyLevelMetadata

def updateNoValueDynamicMetadata (m : HeteroKeyLevelMetadata)
    (isRedirected isGlobalCached : Bool) (addedLocalFrequency addedRedirectedFrequency : Nat) :
    Option HeteroKeyLevelMetadata := do
  require (isGlobalCached = true)
  if isRedirected then
    return { m with
      redirectedFrequency := (m.redirectedFrequency + 1) % uint32Limit
      p2pRedirectedRewardFreq :=
        (m.p2pRedirectedRewardFreq + addedRedirectedFrequency) % uint32Limit }
  else return { m with base := m.base.updateNoValueDynamicMetadata addedLocalFrequency }

def updateValueDynamicMetadata (m : HeteroKeyLevelMetadata) (objectSize originalObjectSize : Nat) :
    Option HeteroKeyLevelMetadata := do
  let base ← m.base.updateValueDynamicMetadata objectSize originalObjectSize
  return { m with base := base }

/-- `LocalCachedMetadata::calculateAndUpdatePopularity_`; the popularity of the redirected rewards
is there in the peer-to-peer mode only. -/
def calculateAndUpdatePopularity (edge : EdgeContext) (m : HeteroKeyLevelMetadata) :
    Option HeteroKeyLevelMetadata := do
  let base ← m.base.calculateLocalPopularity edge
  let redirected ← calculatePopularity edge.round m.redirectedFrequency m.base.objectSize
  if edge.isP2pGlobalMode then
    let reward ← calculatePopularity edge.round m.p2pRedirectedRewardFreq m.base.objectSize
    return { m with
      base := base
      redirectedPopularity := redirected
      redirectedRewardPopularity := reward }
  else return { m with base := base, redirectedPopularity := redirected }

/-- `LocalCachedMetadata::calculateReward_`. -/
def calculateReward (edge : EdgeContext) (m : HeteroKeyLevelMetadata) : Reward :=
  calcLocalCachedReward edge.round edge.weights m.base.localPopularity m.redirectedPopularity
    (!m.isNeighborCached)

def getSizeForCapacity : Nat := KeyLevelMetadataBase.getSizeForCapacity + 8

end HeteroKeyLevelMetadata

namespace HomoKeyLevelMetadata

def updateNoValueDynamicMetadata (m : HomoKeyLevelMetadata) (isRedirected isGlobalCached : Bool)
    (addedLocalFrequency : Nat) : Option HomoKeyLevelMetadata := do
  require (isRedirected = false)
  return {
    base := m.base.updateNoValueDynamicMetadata addedLocalFrequency
    isGlobalCached := isGlobalCached }

/-- A change of the flag for copies at any edge; the flag has to change. -/
def changeIsGlobalCached (m : HomoKeyLevelMetadata) (isGlobalCached : Bool) :
    Option HomoKeyLevelMetadata := do
  require (isGlobalCached ≠ m.isGlobalCached)
  return { m with isGlobalCached := isGlobalCached }

def updateValueDynamicMetadata (m : HomoKeyLevelMetadata) (objectSize originalObjectSize : Nat) :
    Option HomoKeyLevelMetadata := do
  let base ← m.base.updateValueDynamicMetadata objectSize originalObjectSize
  return { m with base := base }

/-- `LocalUncachedMetadata::calculateAndUpdatePopularity_`, the same in the small LRU cache. -/
def calculateAndUpdatePopularity (edge : EdgeContext) (m : HomoKeyLevelMetadata) :
    Option HomoKeyLevelMetadata := do
  let base ← m.base.calculateLocalPopularity edge
  return { m with base := base }

/-- `LocalUncachedMetadata::calculateReward_`, the same in the small LRU cache. -/
def calculateReward (edge : EdgeContext) (m : HomoKeyLevelMetadata) : Reward :=
  calcLocalUncachedReward edge.round edge.weights m.base.localPopularity m.isGlobalCached 0

def getSizeForCapacity : Nat := KeyLevelMetadataBase.getSizeForCapacity + 1

end HomoKeyLevelMetadata

/-! ## What the containers rely on -/

/-- A record type with the functions that its container calls. The group of a key never changes, and
the object size changes only with the value. -/
class KeyLevelMetadata (T : Type) where
  create : (groupId : Nat) → (isNeighborCached : Bool) → T
  getGroupId : T → Nat
  getObjectSize : T → Nat
  updateNoValueDynamicMetadata : T → (isRedirected isGlobalCached : Bool) →
    (addedLocalFrequency addedRedirectedFrequency : Nat) → Option T
  updateValueDynamicMetadata : T → (objectSize originalObjectSize : Nat) → Option T
  calculateAndUpdatePopularity : EdgeContext → T → Option T
  calculateReward : EdgeContext → T → Reward
  sizeForCapacity : Nat
  getGroupId_create : ∀ groupId isNeighborCached,
    getGroupId (create groupId isNeighborCached) = groupId
  getObjectSize_create : ∀ groupId isNeighborCached,
    getObjectSize (create groupId isNeighborCached) = 0
  noValue_keeps : ∀ {m m' : T} {isRedirected isGlobalCached : Bool} {added addedRedirected : Nat},
    updateNoValueDynamicMetadata m isRedirected isGlobalCached added addedRedirected = some m' →
      getGroupId m' = getGroupId m ∧ getObjectSize m' = getObjectSize m
  value_spec : ∀ {m m' : T} {objectSize originalObjectSize : Nat},
    updateValueDynamicMetadata m objectSize originalObjectSize = some m' →
      getGroupId m' = getGroupId m ∧ getObjectSize m' = objectSize
  popularity_keeps : ∀ {edge : EdgeContext} {m m' : T},
    calculateAndUpdatePopularity edge m = some m' →
      getGroupId m' = getGroupId m ∧ getObjectSize m' = getObjectSize m
  exists_value : ∀ {m : T} (objectSize : Nat), ∃ m',
    updateValueDynamicMetadata m objectSize (getObjectSize m) = some m'
  exists_popularity : ∀ {m : T} (edge : EdgeContext), getObjectSize m ≠ 0 → ∃ m',
    calculateAndUpdatePopularity edge m = some m'

namespace KeyLevelMetadataBase

variable {m m' : KeyLevelMetadataBase} {edge : EdgeContext}

theorem value_spec {objectSize originalObjectSize : Nat}
    (h : m.updateValueDynamicMetadata objectSize originalObjectSize = some m') :
    m'.groupId = m.groupId ∧ m'.objectSize = objectSize := by
  obtain ⟨-, h⟩ := require_bind_iff.1 h
  cases h
  exact ⟨rfl, rfl⟩

theorem popularity_keeps (h : m.calculateLocalPopularity edge = some m') :
    m'.groupId = m.groupId ∧ m'.objectSize = m.objectSize := by
  obtain ⟨popularity, -, h⟩ := bind_eq_some_iff.1 h
  cases h
  exact ⟨rfl, rfl⟩

theorem calculatePopularity_eq {objectSize : Nat} (h : objectSize ≠ 0) (r : Rounding)
    (frequency : Nat) :
    calculatePopularity r frequency objectSize = some (r (r frequency / r objectSize)) :=
  require_bind_of h _

theorem exists_popularity (edge : EdgeContext) (h : m.objectSize ≠ 0) :
    ∃ m', m.calculateLocalPopularity edge = some m' := by
  rw [calculateLocalPopularity, calculatePopularity_eq h]
  exact ⟨_, rfl⟩

end KeyLevelMetadataBase

namespace HeteroKeyLevelMetadata

variable {m m' : HeteroKeyLevelMetadata}

theorem noValue_keeps {isRedirected isGlobalCached : Bool} {added addedRedirected : Nat}
    (h : m.updateNoValueDynamicMetadata isRedirected isGlobalCached added addedRedirected =
      some m') :
    m'.base.groupId = m.base.groupId ∧ m'.base.objectSize = m.base.objectSize := by
  obtain ⟨-, h⟩ := require_bind_iff.1 h
  split at h <;> cases h <;> exact ⟨rfl, rfl⟩

theorem value_spec {objectSize originalObjectSize : Nat}
    (h : m.updateValueDynamicMetadata objectSize originalObjectSize = some m') :
    m'.base.groupId = m.base.groupId ∧ m'.base.objectSize = objectSize := by
  obtain ⟨base, hbase, h⟩ := bind_eq_some_iff.1 h
  cases h
  exact KeyLevelMetadataBase.value_spec hbase

theorem popularity_keeps {edge : EdgeContext}
    (h : m.calculateAndUpdatePopularity edge = some m') :
    m'.base.groupId = m.base.groupId ∧ m'.base.objectSize = m.base.objectSize := by
  simp only [calculateAndUpdatePopularity, bind_eq_some_iff] at h
  obtain ⟨base, hbase, redirected, -, h⟩ := h
  have hkeeps := KeyLevelMetadataBase.popularity_keeps hbase
  split at h
  · obtain ⟨reward, -, h⟩ := bind_eq_some_iff.1 h
    cases h
    exact hkeeps
  · cases h
    exact hkeeps

theorem exists_value (objectSize : Nat) :
    ∃ m', m.updateValueDynamicMetadata objectSize m.base.objectSize = some m' := by
  rw [updateValueDynamicMetadata, KeyLevelMetadataBase.updateValueDynamicMetadata, require_of rfl]
  exact ⟨_, rfl⟩

theorem exists_popularity (edge : EdgeContext) (h : m.base.objectSize ≠ 0) :
    ∃ m', m.calculateAndUpdatePopularity edge = some m' := by
  obtain ⟨base, hbase⟩ := KeyLevelMetadataBase.exists_popularity edge h
  simp only [calculateAndUpdatePopularity, hbase, KeyLevelMetadataBase.calculatePopularity_eq h,
    some_bind, Option.pure_def]
  split
  · exact ⟨_, rfl⟩
  · exact ⟨_, rfl⟩

instance : KeyLevelMetadata HeteroKeyLevelMetadata where
  create groupId isNeighborCached :=
    { base := { groupId := groupId }, isNeighborCached := isNeighborCached }
  getGroupId m := m.base.groupId
  getObjectSize m := m.base.objectSize
  updateNoValueDynamicMetadata := updateNoValueDynamicMetadata
  updateValueDynamicMetadata := updateValueDynamicMetadata
  calculateAndUpdatePopularity := calculateAndUpdatePopularity
  calculateReward := calculateReward
  sizeForCapacity := getSizeForCapacity
  getGroupId_create _ _ := rfl
  getObjectSize_create _ _ := rfl
  noValue_keeps := noValue_keeps
  value_spec := value_spec
  popularity_keeps := popularity_keeps
  exists_value := exists_value
  exists_popularity := exists_popularity

end HeteroKeyLevelMetadata

namespace HomoKeyLevelMetadata

variable {m m' : HomoKeyLevelMetadata}

theorem noValue_keeps {isRedirected isGlobalCached : Bool} {added : Nat}
    (h : m.updateNoValueDynamicMetadata isRedirected isGlobalCached added = some m') :
    m'.base.groupId = m.base.groupId ∧ m'.base.objectSize = m.base.objectSize := by
  obtain ⟨-, h⟩ := require_bind_iff.1 h
  cases h
  exact ⟨rfl, rfl⟩

theorem value_spec {objectSize originalObjectSize : Nat}
    (h : m.updateValueDynamicMetadata objectSize originalObjectSize = some m') :
    m'.base.groupId = m.base.groupId ∧ m'.base.objectSize = objectSize := by
  obtain ⟨base, hbase, h⟩ := bind_eq_some_iff.1 h
  cases h
  exact KeyLevelMetadataBase.value_spec hbase

theorem popularity_keeps {edge : EdgeContext}
    (h : m.calculateAndUpdatePopularity edge = some m') :
    m'.base.groupId = m.base.groupId ∧ m'.base.objectSize = m.base.objectSize := by
  obtain ⟨base, hbase, h⟩ := bind_eq_some_iff.1 h
  cases h
  exact KeyLevelMetadataBase.popularity_keeps hbase

theorem exists_value (objectSize : Nat) :
    ∃ m', m.updateValueDynamicMetadata objectSize m.base.objectSize = some m' := by
  rw [updateValueDynamicMetadata, KeyLevelMetadataBase.updateValueDynamicMetadata, require_of rfl]
  exact ⟨_, rfl⟩

theorem exists_popularity (edge : EdgeContext) (h : m.base.objectSize ≠ 0) :
    ∃ m', m.calculateAndUpdatePopularity edge = some m' := by
  obtain ⟨base, hbase⟩ := KeyLevelMetadataBase.exists_popularity edge h
  rw [calculateAndUpdatePopularity, hbase]
  exact ⟨_, rfl⟩

instance : KeyLevelMetadata HomoKeyLevelMetadata where
  create groupId _ := { base := { groupId := groupId } }
  getGroupId m := m.base.groupId
  getObjectSize m := m.base.objectSize
  updateNoValueDynamicMetadata m isRedirected isGlobalCached addedLocalFrequency _ :=
    m.updateNoValueDynamicMetadata isRedirected isGlobalCached addedLocalFrequency
  updateValueDynamicMetadata := updateValueDynamicMetadata
  calculateAndUpdatePopularity := calculateAndUpdatePopularity
  calculateReward := calculateReward
  sizeForCapacity := getSizeForCapacity
  getGroupId_create _ _ := rfl
  getObjectSize_create _ _ := rfl
  noValue_keeps := noValue_keeps
  value_spec := value_spec
  popularity_keeps := popularity_keeps
  exists_value := exists_value
  exists_popularity := exists_popularity

end HomoKeyLevelMetadata

/-! ## Operations of a container -/

/-- The operations on a container of records, with the edge on which they run. -/
inductive MetadataOperation where
  | addForNewKey (edge : EdgeContext) (key : Key) (value : Value)
      (isGlobalCached isNeighborCached : Bool) (addedLocalFrequency addedRedirectedFrequency : Nat)
  | updateNoValueStatsForExistingKey (edge : EdgeContext) (key : Key)
      (isRedirected isGlobalCached : Bool)
  | updateNoValueStatsForExistingKeyP2p (edge : EdgeContext) (key : Key)
      (isRedirected isGlobalCached : Bool) (redirectedReward : Nat)
  | updateValueStatsForExistingKey (edge : EdgeContext) (key : Key) (value originalValue : Value)
  | removeForExistingKey (key : Key)

end Covered.Cache
