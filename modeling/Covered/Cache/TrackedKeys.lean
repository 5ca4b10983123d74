import Covered.Cache.PerkeyRecords

/-!
# What a container of key-level records stands for

The records in LRU order and the keys by reward, without iterators, lookup table or counters. That
the rewards are those of the keys with a record and that they are in order are fields of
`TrackedKeys`, so no operation can lose them. The operations are the ones of the container in these
terms; `setRecord`, `moveToFront`, `setReward`, `insertKey` and `removeKey` are their steps.
-/

set_option autoImplicit false

namespace Covered.Cache

open Common Lib Lib.Checked Lib.SortBy KeyedList

/-- Records in LRU order and keys in the order of their rewards. -/
structure TrackedKeys (T : Type) extends LruRecords T where
  rewards : List (Reward × Key) := []
  perm : (rewards.map Prod.snd).Perm (lru.map Prod.fst) := by exact List.Perm.nil
  ascending : Ascending Prod.fst rewards := by exact List.Pairwise.nil

namespace TrackedKeys

variable {T : Type}

def empty : TrackedKeys T := { toLruRecords := .empty }

theorem nodup_rewards (v : TrackedKeys T) : KeyedList.NodupKeys Prod.snd v.rewards :=
  (v.perm.nodup_iff).2 v.nodup

theorem length_rewards (v : TrackedKeys T) : v.rewards.length = v.lru.length := by
  have hlength := v.perm.length_eq
  rwa [List.length_map, List.length_map] at hlength

variable {v : TrackedKeys T} {key : Key} {t : T}

/-! ## Steps -/

/-- Replace the record of a key. -/
def setRecord (v : TrackedKeys T) (key : Key) (t : T) : TrackedKeys T where
  toLruRecords := v.toLruRecords.setRecord key t
  rewards := v.rewards
  perm := by
    have hkeys : (v.toLruRecords.setRecord key t).keys = v.keys := LruRecords.keys_setRecord
    rw [LruRecords.keys] at hkeys
    rw [hkeys]
    exact v.perm
  ascending := v.ascending

/-- Move a key to the head of the LRU list. -/
def moveToFront (v : TrackedKeys T) (key : Key) : TrackedKeys T where
  toLruRecords := v.toLruRecords.moveToFront key
  rewards := v.rewards
  perm := v.perm.trans (v.toLruRecords.perm_moveToFront key).symm
  ascending := v.ascending

/-- The rewards with a new one for a key, behind those that are equal. -/
def rewardsWith (v : TrackedKeys T) (key : Key) (r : Reward) : List (Reward × Key) :=
  match KeyedList.find Prod.snd key v.rewards with
  | none => v.rewards
  | some _ =>
      (KeyedList.erase Prod.snd key v.rewards).orderedInsert (fun a b => a.1 < b.1) (r, key)

theorem perm_rewardsWith (v : TrackedKeys T) (key : Key) (r : Reward) :
    ((v.rewardsWith key r).map Prod.snd).Perm (v.rewards.map Prod.snd) := by
  rw [rewardsWith]
  cases h : find Prod.snd key v.rewards with
  | none => exact List.Perm.refl _
  | some pair =>
    have hinsert := (List.perm_orderedInsert (fun a b : Reward × Key => a.1 < b.1) (r, key)
      (erase Prod.snd key v.rewards)).map Prod.snd
    have herase := (perm_cons_erase h).map Prod.snd
    rw [List.map_cons, key_of_find h] at herase
    exact hinsert.trans herase.symm

theorem ascending_rewardsWith (v : TrackedKeys T) (key : Key) (r : Reward) :
    Ascending Prod.fst (v.rewardsWith key r) := by
  rw [rewardsWith]
  cases find Prod.snd key v.rewards with
  | none => exact v.ascending
  | some pair =>
    exact Ascending.orderedInsert (v.ascending.sublist erase_sublist) (r, key)

/-- Replace the reward of a key. -/
def setReward (v : TrackedKeys T) (key : Key) (r : Reward) : TrackedKeys T where
  toLruRecords := v.toLruRecords
  rewards := v.rewardsWith key r
  perm := (v.perm_rewardsWith key r).trans v.perm
  ascending := v.ascending_rewardsWith key r

/-- A new key with its record and its reward. -/
def insertKey (v : TrackedKeys T) (key : Key) (t : T) (r : Reward) (hnew : key ∉ v.keys)
    (hbytes : bytesOfKeys v.keys + key.getKeyLength < uint64Limit) : TrackedKeys T where
  toLruRecords := v.toLruRecords.insertKey key t hnew hbytes
  rewards := v.rewards.orderedInsert (fun a b => a.1 < b.1) (r, key)
  perm := ((List.perm_orderedInsert (fun a b : Reward × Key => a.1 < b.1) (r, key)
    v.rewards).map Prod.snd).trans (v.perm.cons key)
  ascending := v.ascending.orderedInsert (r, key)

/-- The container without a key. -/
def removeKey (v : TrackedKeys T) (key : Key) : TrackedKeys T where
  toLruRecords := v.toLruRecords.removeKey key
  rewards := KeyedList.erase Prod.snd key v.rewards
  perm := by
    have hkeys : (v.toLruRecords.removeKey key).keys = v.keys.filter fun k => decide (k ≠ key) :=
      LruRecords.keys_removeKey
    rw [LruRecords.keys] at hkeys
    rw [hkeys, KeyedList.map_erase v.nodup_rewards]
    exact v.perm.filter _
  ascending := v.ascending.sublist KeyedList.erase_sublist

@[simp] theorem toLruRecords_setRecord :
    (v.setRecord key t).toLruRecords = v.toLruRecords.setRecord key t := rfl

@[simp] theorem toLruRecords_moveToFront :
    (v.moveToFront key).toLruRecords = v.toLruRecords.moveToFront key := rfl

@[simp] theorem toLruRecords_insertKey {r : Reward} (hnew : key ∉ v.keys)
    (hbytes : bytesOfKeys v.keys + key.getKeyLength < uint64Limit) :
    (v.insertKey key t r hnew hbytes).toLruRecords = v.toLruRecords.insertKey key t hnew hbytes :=
    rfl

/-! ## Operations -/

section Operations

variable [KeyLevelMetadata T]

/-- The new popularity and reward of a key whose record is `t`. -/
def updatePopularityAndReward (edge : EdgeContext) (v : TrackedKeys T) (key : Key) (t : T) :
    Option (TrackedKeys T) := do
  let t ← KeyLevelMetadata.calculateAndUpdatePopularity edge t
  return (v.setRecord key t).setReward key (KeyLevelMetadata.calculateReward edge t)

/-- A key whose record changes without its value. -/
def updateNoValueStats (edge : EdgeContext) (v : TrackedKeys T) (key : Key)
    (update : T → Option T) : Option (TrackedKeys T) := do
  let t ← v.record key
  let t ← update t
  ((v.setRecord key t).moveToFront key).updatePopularityAndReward edge key t

/-- A key whose record changes in its place. -/
def updateInPlace (edge : EdgeContext) (v : TrackedKeys T) (key : Key)
    (update : T → Option T) : Option (TrackedKeys T) := do
  let t ← v.record key
  let t ← update t
  (v.setRecord key t).updatePopularityAndReward edge key t

def remove (v : TrackedKeys T) (key : Key) : Option (TrackedKeys T) := do
  let _ ← v.record key
  return v.removeKey key

/-- A new key, before the budget is enforced. -/
def addKey (edge : EdgeContext) (v : TrackedKeys T) (key : Key) (value : Value)
    (isGlobalCached isNeighborCached : Bool)
    (addedLocalFrequency addedRedirectedFrequency : Nat) : Option (TrackedKeys T) :=
  if h : key ∉ v.keys ∧ bytesOfKeys v.keys + key.getKeyLength < uint64Limit then do
    let t ← LruRecords.newRecord edge
      (assignGroup v.curGroupId v.curGroupKeycnt).1 key value isGlobalCached
      isNeighborCached addedLocalFrequency addedRedirectedFrequency
    return v.insertKey key t (KeyLevelMetadata.calculateReward edge t) h.1 h.2
  else none

/-- The bytes of the metadata. -/
def getSizeForCapacity (v : TrackedKeys T) (isLocalCachedMetadata : Bool) : Option Nat := do
  let groups := v.groupIds.dedup.length
  let total ← uint64Add 0 (v.lru.length * KeyLevelMetadata.sizeForCapacity T)
  let total ← uint64Add total (groups * 4)
  let total ← uint64Add total (groups * GroupLevelMetadata.getSizeForCapacity)
  let total ← uint64Add total (v.lru.length * 4)
  let total ← uint64Add total (bytesOfKeys v.keys)
  let total ←
    if isLocalCachedMetadata then some total else uint64Add total (bytesOfKeys v.keys)
  let total ← uint64Add total (v.lru.length * 8)
  uint64Add total (v.lru.length * 8)

/-- Drop keys of the least reward while the metadata exceeds the budget. -/
def detrackForCapacity (maxBytes : Nat) : Nat → TrackedKeys T → Option (TrackedKeys T)
  | 0, _ => none
  | fuel + 1, v => do
      let size ← v.getSizeForCapacity false
      if size > maxBytes then
        let (_, detrackedKey) ← v.rewards[0]?
        let v ← v.remove detrackedKey
        detrackForCapacity maxBytes fuel v
      else return v

def afterAddForNewKey (maxBytes : Option Nat) (v : TrackedKeys T) : Option (TrackedKeys T) :=
  match maxBytes with
  | none => some v
  | some maxBytes => v.detrackForCapacity maxBytes (v.lru.length + 1)

/-- A new key within the budget, if there is one. -/
def addForNewKey (maxBytes : Option Nat) (edge : EdgeContext) (v : TrackedKeys T) (key : Key)
    (value : Value) (isGlobalCached isNeighborCached : Bool)
    (addedLocalFrequency addedRedirectedFrequency : Nat) : Option (TrackedKeys T) := do
  let v ← v.addKey edge key value isGlobalCached isNeighborCached addedLocalFrequency
    addedRedirectedFrequency
  v.afterAddForNewKey maxBytes

def step (maxBytes : Option Nat) (v : TrackedKeys T) (o : MetadataOperation) :
    Option (TrackedKeys T × Unit) :=
  match o with
  | .addForNewKey edge key value isGlobalCached isNeighborCached added addedRedirected =>
      (v.addForNewKey maxBytes edge key value isGlobalCached isNeighborCached added
        addedRedirected).map (·, ())
  | .updateNoValueStatsForExistingKey edge key isRedirected isGlobalCached =>
      (v.updateNoValueStats edge key fun t =>
        KeyLevelMetadata.updateNoValueDynamicMetadata t isRedirected isGlobalCached 1 1).map (·, ())
  | .updateNoValueStatsForExistingKeyP2p edge key isRedirected isGlobalCached redirectedReward =>
      (do
        require (isRedirected = true)
        v.updateNoValueStats edge key fun t =>
          KeyLevelMetadata.updateNoValueDynamicMetadata t isRedirected isGlobalCached 0
            redirectedReward : Option (TrackedKeys T)).map (·, ())
  | .updateValueStatsForExistingKey edge key value originalValue =>
      (v.updateInPlace edge key fun t =>
        KeyLevelMetadata.updateValueDynamicMetadata t (objectSize key value)
          (objectSize key originalValue)).map (·, ())
  | .removeForExistingKey key => (v.remove key).map (·, ())

end Operations

def updateIsGlobalCached (edge : EdgeContext) (v : TrackedKeys HomoKeyLevelMetadata) (key : Key)
    (isGetrsp isGlobalCached : Bool) : Option (TrackedKeys HomoKeyLevelMetadata) := do
  require (isGetrsp = true)
  let t ← v.record key
  let t ← t.changeIsGlobalCached isGlobalCached
  return (v.setRecord key t).setReward key (KeyLevelMetadata.calculateReward edge t)

def updateIsNeighborCached (v : TrackedKeys HeteroKeyLevelMetadata) (key : Key)
    (isNeighborCached : Bool) : Option (TrackedKeys HeteroKeyLevelMetadata) := do
  let t ← v.record key
  return v.setRecord key { t with isNeighborCached := isNeighborCached }

end TrackedKeys

end Covered.Cache
