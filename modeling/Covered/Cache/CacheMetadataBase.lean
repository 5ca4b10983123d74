import Covered.Cache.PerkeyRecords

/-!
# The metadata of the tracked keys

A container of key-level records has four parts: an LRU list of the records, the groups that the
keys belong to, a multimap that sorts the keys by their reward, and a lookup table that has for each
key its place in the list and in the multimap. The sizes of the keys are counted for each part.

The places are iterators, so every operation finds a key through the lookup table, changes the parts
one after the other and stores the new places. The functions abort where the source asserts. The
container of the uncached keys has a budget: after each new key it drops keys of the least reward
until it is within the budget again.

Whether an operation affects the victims that are synchronized is left out, and so is the size that
comes with a removed key, which only groups without object sizes for each key use.
-/

set_option autoImplicit false

namespace Covered.Cache

open Common Lib Lib.Checked

/-- The places of a key. -/
structure LookupMetadata where
  perkeyMetadataListIter : Nat := 0
  sortedRewardIter : Nat := 0
deriving DecidableEq

/-- The LRU list and the groups, the keys by reward and the lookup table. -/
structure CacheMetadataBase (T : Type) where
  records : PerkeyRecords T := {}
  sortedRewardMultimapKeySize : Nat := 0
  sortedRewardMultimap : LinkedList (Reward × Key) := .empty
  perkeyLookupTableKeySize : Nat := 0
  perkeyLookupTable : UnorderedMap Key LookupMetadata := ∅

namespace CacheMetadataBase

variable {T : Type}

def empty : CacheMetadataBase T := {}

def isKeyExist (s : CacheMetadataBase T) (key : Key) : Bool :=
  (s.perkeyLookupTable.lookup key).isSome

/-- The places of an existing key. -/
def getLookup (s : CacheMetadataBase T) (key : Key) : Option LookupMetadata :=
  s.perkeyLookupTable.lookup key

/-! ## Parts of the operations -/

def addLookup (s : CacheMetadataBase T) (key : Key) : Option (CacheMetadataBase T) := do
  require (s.perkeyLookupTable.lookup key = none)
  let keySize ← uint64Add s.perkeyLookupTableKeySize key.getKeyLength
  return { s with
    perkeyLookupTable := s.perkeyLookupTable.insert key {}
    perkeyLookupTableKeySize := keySize }

def updateLookup (s : CacheMetadataBase T) (key : Key) (entry : LookupMetadata) :
    CacheMetadataBase T :=
  { s with perkeyLookupTable := s.perkeyLookupTable.insert key entry }

def removeLookup (s : CacheMetadataBase T) (key : Key) : CacheMetadataBase T :=
  { s with
    perkeyLookupTable := s.perkeyLookupTable.erase key
    perkeyLookupTableKeySize := uint64Minus s.perkeyLookupTableKeySize key.getKeyLength }

/-- Add a reward of a key; returns its place. Keys with the same reward keep the order in which they
got it. -/
def addReward (s : CacheMetadataBase T) (reward : Reward) (key : Key) :
    Option (CacheMetadataBase T × Nat) := do
  let keySize ← uint64Add s.sortedRewardMultimapKeySize key.getKeyLength
  return ({ s with
    sortedRewardMultimap := s.sortedRewardMultimap.insertSorted Prod.fst (reward, key)
    sortedRewardMultimapKeySize := keySize }, s.sortedRewardMultimap.next)

/-- Replace the reward of an existing key; returns its new place. -/
def updateReward (s : CacheMetadataBase T) (reward : Reward) (key : Key) (sortedRewardIter : Nat) :
    Option (CacheMetadataBase T × Nat) := do
  let old ← s.sortedRewardMultimap.get sortedRewardIter
  require (old.2 = key)
  let erased := s.sortedRewardMultimap.erase sortedRewardIter
  return ({ s with sortedRewardMultimap := erased.insertSorted Prod.fst (reward, key) },
    erased.next)

def removeReward (s : CacheMetadataBase T) (key : Key) (sortedRewardIter : Nat) :
    Option (CacheMetadataBase T) := do
  let old ← s.sortedRewardMultimap.get sortedRewardIter
  require (old.2 = key)
  return { s with
    sortedRewardMultimap := s.sortedRewardMultimap.erase sortedRewardIter
    sortedRewardMultimapKeySize := uint64Minus s.sortedRewardMultimapKeySize key.getKeyLength }

section Operations

variable [KeyLevelMetadata T]

/-- The record of an existing key. -/
def getkeyLevelMetadata (s : CacheMetadataBase T) (key : Key) : Option T := do
  let entry ← s.getLookup key
  let node ← s.records.perkeyMetadataList.get entry.perkeyMetadataListIter
  return node.2

def getObjectSize (s : CacheMetadataBase T) (key : Key) : Option Nat := do
  let metadata ← s.getkeyLevelMetadata key
  return KeyLevelMetadata.getObjectSize metadata

/-- The new popularity and reward of an existing key. -/
def updatePopularityAndReward (edge : EdgeContext) (s : CacheMetadataBase T) (key : Key)
    (entry : LookupMetadata) : Option (CacheMetadataBase T) := do
  let (records, metadata) ← s.records.updatePerkeyMetadata entry.perkeyMetadataListIter
    (KeyLevelMetadata.calculateAndUpdatePopularity edge)
  let s := { s with records := records }
  let reward := KeyLevelMetadata.calculateReward edge metadata
  let (s, sortedRewardIter) ← s.updateReward reward key entry.sortedRewardIter
  return s.updateLookup key { entry with sortedRewardIter := sortedRewardIter }

/-! ## Operations -/

/-- Track a new key, before the budget is enforced. -/
def addKey (edge : EdgeContext) (s : CacheMetadataBase T) (key : Key) (value : Value)
    (isGlobalCached isNeighborCached : Bool)
    (addedLocalFrequency addedRedirectedFrequency : Nat) : Option (CacheMetadataBase T) := do
  let s ← s.addLookup key
  let (records, perkeyMetadataListIter, metadata) ← s.records.addRecord edge key value
    isGlobalCached
    isNeighborCached addedLocalFrequency addedRedirectedFrequency
  let s := { s with records := records }
  let reward := KeyLevelMetadata.calculateReward edge metadata
  let (s, sortedRewardIter) ← s.addReward reward key
  return s.updateLookup key ⟨perkeyMetadataListIter, sortedRewardIter⟩

/-- An access to an existing key: its record changes without its value and moves to the head of the
LRU list. -/
def updateNoValueStats (edge : EdgeContext) (s : CacheMetadataBase T) (key : Key)
    (update : T → Option T) : Option (CacheMetadataBase T) := do
  let entry ← s.getLookup key
  let (records, metadata) ← s.records.updatePerkeyMetadata entry.perkeyMetadataListIter update
  let s := { s with records := records.moveToFront entry.perkeyMetadataListIter }
  let _ ← s.records.pergroupMetadataMap.lookup (KeyLevelMetadata.getGroupId metadata)
  s.updatePopularityAndReward edge key entry

def updateNoValueStatsForExistingKey (edge : EdgeContext) (s : CacheMetadataBase T) (key : Key)
    (isRedirected isGlobalCached : Bool) : Option (CacheMetadataBase T) :=
  s.updateNoValueStats edge key fun metadata =>
    KeyLevelMetadata.updateNoValueDynamicMetadata metadata isRedirected isGlobalCached 1 1

def updateNoValueStatsForExistingKeyP2p (edge : EdgeContext) (s : CacheMetadataBase T) (key : Key)
    (isRedirected isGlobalCached : Bool) (redirectedReward : Nat) :
    Option (CacheMetadataBase T) := do
  require (isRedirected = true)
  s.updateNoValueStats edge key fun metadata =>
    KeyLevelMetadata.updateNoValueDynamicMetadata metadata isRedirected isGlobalCached 0
      redirectedReward

/-- The value of an existing key changes; its place in the LRU list does not. -/
def updateValueStatsForExistingKey (edge : EdgeContext) (s : CacheMetadataBase T) (key : Key)
    (value originalValue : Value) : Option (CacheMetadataBase T) := do
  let entry ← s.getLookup key
  let (records, metadata) ← s.records.updatePerkeyMetadata entry.perkeyMetadataListIter
    fun metadata => KeyLevelMetadata.updateValueDynamicMetadata metadata (objectSize key value)
      (objectSize key originalValue)
  let s := { s with records := records }
  let group ← s.records.pergroupMetadataMap.lookup (KeyLevelMetadata.getGroupId metadata)
  let _ ← group.updateValueStatsForInGroupKey
  s.updatePopularityAndReward edge key entry

/-- Stop tracking an existing key. -/
def removeForExistingKey (s : CacheMetadataBase T) (key : Key) : Option (CacheMetadataBase T) := do
  let entry ← s.getLookup key
  let node ← s.records.perkeyMetadataList.get entry.perkeyMetadataListIter
  let records ← s.records.removePergroupMetadata (KeyLevelMetadata.getGroupId node.2)
  let records ← records.removePerkeyMetadata entry.perkeyMetadataListIter
  let s := { s with records := records }
  let s ← s.removeReward key entry.sortedRewardIter
  return s.removeLookup key

/-! ## Sizes and the budget -/

/-- The key with the given rank by reward, the least reward first. -/
def getLeastRewardKeyAndReward (s : CacheMetadataBase T) (leastRewardRank : Nat) :
    Option (Key × Reward) :=
  s.sortedRewardMultimap.toList[leastRewardRank]?.map fun pair => (pair.2, pair.1)

/-- The bytes of the metadata; the keys of the lookup table count for uncached keys only, since the
table of the cached keys can be stored with the objects. -/
def getSizeForCapacity (s : CacheMetadataBase T) (isLocalCachedMetadata : Bool) : Option Nat := do
  let listSize := s.records.perkeyMetadataList.toList.length * KeyLevelMetadata.sizeForCapacity T
  let groupIdSize := s.records.pergroupMetadataMap.entries.length * 4
  let groupSize := s.records.pergroupMetadataMap.entries.length *
    GroupLevelMetadata.getSizeForCapacity
  let rewardSize := s.sortedRewardMultimap.toList.length * 4
  let iterSize := s.perkeyLookupTable.entries.length * 8
  let total ← uint64Add 0 listSize
  let total ← uint64Add total groupIdSize
  let total ← uint64Add total groupSize
  let total ← uint64Add total rewardSize
  let total ← uint64Add total s.sortedRewardMultimapKeySize
  let total ←
    if isLocalCachedMetadata then some total else uint64Add total s.perkeyLookupTableKeySize
  let total ← uint64Add total iterSize
  uint64Add total iterSize

/-- `LocalUncachedMetadata::afterAddForNewKey_`: drop keys of the least reward while the metadata
exceeds the budget. Every pass drops a key, so the number of keys bounds the passes. -/
def detrackForCapacity (maxBytes : Nat) : Nat → CacheMetadataBase T → Option (CacheMetadataBase T)
  | 0, _ => none
  | fuel + 1, s => do
      let size ← s.getSizeForCapacity false
      if size > maxBytes then
        let (detrackedKey, _) ← s.getLeastRewardKeyAndReward 0
        let _ ← s.getObjectSize detrackedKey
        let s ← s.removeForExistingKey detrackedKey
        detrackForCapacity maxBytes fuel s
      else return s

/-- `afterAddForNewKey_` of the cached keys, which have no budget, and of the uncached keys. -/
def afterAddForNewKey (maxBytes : Option Nat) (s : CacheMetadataBase T) :
    Option (CacheMetadataBase T) :=
  match maxBytes with
  | none => some s
  | some maxBytes => s.detrackForCapacity maxBytes (s.records.perkeyMetadataList.toList.length + 1)

/-- Track a new key within the budget, if there is one. -/
def addForNewKey (maxBytes : Option Nat) (edge : EdgeContext) (s : CacheMetadataBase T) (key : Key)
    (value : Value) (isGlobalCached isNeighborCached : Bool)
    (addedLocalFrequency addedRedirectedFrequency : Nat) : Option (CacheMetadataBase T) := do
  let s ← s.addKey edge key value isGlobalCached isNeighborCached addedLocalFrequency
    addedRedirectedFrequency
  s.afterAddForNewKey maxBytes

/-- The container as a machine; its operations return nothing. -/
def step (maxBytes : Option Nat) (s : CacheMetadataBase T) (o : MetadataOperation) :
    Option (CacheMetadataBase T × Unit) :=
  match o with
  | .addForNewKey edge key value isGlobalCached isNeighborCached added addedRedirected =>
      (s.addForNewKey maxBytes edge key value isGlobalCached isNeighborCached added
        addedRedirected).map (·, ())
  | .updateNoValueStatsForExistingKey edge key isRedirected isGlobalCached =>
      (s.updateNoValueStatsForExistingKey edge key isRedirected isGlobalCached).map (·, ())
  | .updateNoValueStatsForExistingKeyP2p edge key isRedirected isGlobalCached redirectedReward =>
      (s.updateNoValueStatsForExistingKeyP2p edge key isRedirected isGlobalCached
        redirectedReward).map (·, ())
  | .updateValueStatsForExistingKey edge key value originalValue =>
      (s.updateValueStatsForExistingKey edge key value originalValue).map (·, ())
  | .removeForExistingKey key => (s.removeForExistingKey key).map (·, ())

end Operations

/-! ## The flags for copies at other edges -/

/-- `LocalUncachedMetadata::isGlobalCachedForExistingKey`. -/
def isGlobalCachedForExistingKey (s : CacheMetadataBase HomoKeyLevelMetadata) (key : Key) :
    Option Bool := do
  let metadata ← s.getkeyLevelMetadata key
  return metadata.isGlobalCached

/-- `LocalUncachedMetadata::updateIsGlobalCachedForExistingKey`: the reward follows the flag. -/
def updateIsGlobalCachedForExistingKey (edge : EdgeContext)
    (s : CacheMetadataBase HomoKeyLevelMetadata) (key : Key) (isGetrsp isGlobalCached : Bool) :
    Option (CacheMetadataBase HomoKeyLevelMetadata) := do
  require (isGetrsp = true)
  let entry ← s.getLookup key
  let (records, metadata) ← s.records.updatePerkeyMetadata entry.perkeyMetadataListIter
    fun metadata => metadata.changeIsGlobalCached isGlobalCached
  let s := { s with records := records }
  let reward := KeyLevelMetadata.calculateReward edge metadata
  let (s, sortedRewardIter) ← s.updateReward reward key entry.sortedRewardIter
  return s.updateLookup key { entry with sortedRewardIter := sortedRewardIter }

/-- `LocalCachedMetadata::updateIsNeighborCachedForExistingKey`: the reward stays until the next
access. -/
def updateIsNeighborCachedForExistingKey (s : CacheMetadataBase HeteroKeyLevelMetadata) (key : Key)
    (isNeighborCached : Bool) : Option (CacheMetadataBase HeteroKeyLevelMetadata) := do
  let entry ← s.getLookup key
  let (records, _) ← s.records.updatePerkeyMetadata entry.perkeyMetadataListIter
    fun metadata => some { metadata with isNeighborCached := isNeighborCached }
  return { s with records := records }

end CacheMetadataBase

end Covered.Cache
