import Mathlib.Data.List.Dedup
import Covered.Cache.PerkeyRecords
import Covered.Lib.Simulation

/-!
# The small LRU cache of uncached keys

Before an uncached key is tracked with a reward it is tracked in a small LRU cache of records, which
drops the keys used last whenever it exceeds its own budget. The cache has an LRU list of the
records with their groups, and a lookup table with the place of each key; its functions abort where
the source asserts. An addition returns the reward of the new key, also when the key itself was
dropped again.

The functions on `LruRecords` are the same without iterators, and `LocalUncachedLru.Represents`
relates the two: every function of the cache is simulated, aborts and results included.
-/

set_option autoImplicit false

namespace Covered.Cache

open Common Lib Lib.Checked Lib.Simulation UnorderedMap LinkedList Option LruRecords

/-- The LRU list and the groups, and the place of each key. -/
structure LocalUncachedLru where
  records : PerkeyRecords HomoKeyLevelMetadata := {}
  perkeyLookupTableKeySize : Nat := 0
  perkeyLookupTable : UnorderedMap Key Nat := ∅

namespace LocalUncachedLru

def empty : LocalUncachedLru := {}

def isKeyExist (s : LocalUncachedLru) (key : Key) : Bool := (s.perkeyLookupTable.lookup key).isSome

/-- The record of an existing key. -/
def getkeyLevelMetadata (s : LocalUncachedLru) (key : Key) : Option HomoKeyLevelMetadata := do
  let it ← s.perkeyLookupTable.lookup key
  let node ← s.records.perkeyMetadataList.get it
  return node.2

def getObjectSize (s : LocalUncachedLru) (key : Key) : Option Nat := do
  let metadata ← s.getkeyLevelMetadata key
  return metadata.base.objectSize

def isGlobalCachedForExistingKey (s : LocalUncachedLru) (key : Key) : Option Bool := do
  let metadata ← s.getkeyLevelMetadata key
  return metadata.isGlobalCached

/-- A new key, before the budget is enforced; returns its reward. -/
def addKey (edge : EdgeContext) (s : LocalUncachedLru) (key : Key) (value : Value)
    (isGlobalCached : Bool) : Option (LocalUncachedLru × Reward) := do
  require (s.perkeyLookupTable.lookup key = none)
  let keySize ← uint64Add s.perkeyLookupTableKeySize key.getKeyLength
  let (records, it, metadata) ← s.records.addRecord edge key value isGlobalCached false 1 1
  return ({
    records := records
    perkeyLookupTableKeySize := keySize
    perkeyLookupTable := s.perkeyLookupTable.insert key it },
    KeyLevelMetadata.calculateReward edge metadata)

/-- The new popularity of the key at a place; returns its reward. -/
def updatePopularity (edge : EdgeContext) (s : LocalUncachedLru) (it : Nat) :
    Option (LocalUncachedLru × Reward) := do
  let (records, metadata) ← s.records.updatePerkeyMetadata it
    (KeyLevelMetadata.calculateAndUpdatePopularity edge)
  return ({ s with records := records }, KeyLevelMetadata.calculateReward edge metadata)

def updateNoValueStatsForExistingKey (edge : EdgeContext) (s : LocalUncachedLru) (key : Key)
    (isGlobalCached : Bool) : Option (LocalUncachedLru × Reward) := do
  let it ← s.perkeyLookupTable.lookup key
  let (records, metadata) ← s.records.updatePerkeyMetadata it fun metadata =>
    metadata.updateNoValueDynamicMetadata false isGlobalCached 1
  let s := { s with records := records.moveToFront it }
  let _ ← s.records.pergroupMetadataMap.lookup metadata.base.groupId
  s.updatePopularity edge it

def updateValueStatsForExistingKey (edge : EdgeContext) (s : LocalUncachedLru) (key : Key)
    (value originalValue : Value) : Option (LocalUncachedLru × Reward) := do
  let it ← s.perkeyLookupTable.lookup key
  let (records, metadata) ← s.records.updatePerkeyMetadata it fun metadata =>
    metadata.updateValueDynamicMetadata (objectSize key value) (objectSize key originalValue)
  let s := { s with records := records }
  let group ← s.records.pergroupMetadataMap.lookup metadata.base.groupId
  let _ ← group.updateValueStatsForInGroupKey
  s.updatePopularity edge it

def updateIsGlobalCachedForExistingKey (edge : EdgeContext) (s : LocalUncachedLru) (key : Key)
    (isGetrsp isGlobalCached : Bool) : Option (LocalUncachedLru × Reward) := do
  require (isGetrsp = true)
  let it ← s.perkeyLookupTable.lookup key
  let (records, metadata) ← s.records.updatePerkeyMetadata it fun metadata =>
    metadata.changeIsGlobalCached isGlobalCached
  return ({ s with records := records }, KeyLevelMetadata.calculateReward edge metadata)

/-- Stop tracking an existing key; returns its record. -/
def removeForExistingKey (s : LocalUncachedLru) (key : Key) :
    Option (LocalUncachedLru × HomoKeyLevelMetadata) := do
  let it ← s.perkeyLookupTable.lookup key
  let node ← s.records.perkeyMetadataList.get it
  let records ← s.records.removePergroupMetadata node.2.base.groupId
  let records ← records.removePerkeyMetadata it
  return ({
    records := records
    perkeyLookupTableKeySize := uint64Minus s.perkeyLookupTableKeySize key.getKeyLength
    perkeyLookupTable := s.perkeyLookupTable.erase key }, node.2)

/-- The bytes of the cache. -/
def getSizeForCapacity (s : LocalUncachedLru) : Option Nat := do
  let listSize :=
    s.records.perkeyMetadataList.toList.length * HomoKeyLevelMetadata.getSizeForCapacity
  let groupIdSize := s.records.pergroupMetadataMap.entries.length * 4
  let groupSize :=
    s.records.pergroupMetadataMap.entries.length * GroupLevelMetadata.getSizeForCapacity
  let iterSize := s.perkeyLookupTable.entries.length * 8
  let total ← uint64Add 0 s.records.perkeyMetadataListKeySize
  let total ← uint64Add total listSize
  let total ← uint64Add total groupIdSize
  let total ← uint64Add total groupSize
  let total ← uint64Add total s.perkeyLookupTableKeySize
  uint64Add total iterSize

/-- Drop the keys used last while the cache exceeds its budget. Every pass drops a key, so the
number of keys bounds the passes. -/
def eraseForCapacity (maxBytes : Nat) : Nat → LocalUncachedLru → Option LocalUncachedLru
  | 0, _ => none
  | fuel + 1, s => do
      let size ← s.getSizeForCapacity
      if size > maxBytes then
        let (_, erasedKey, _) ← s.records.perkeyMetadataList.back
        let _ ← s.getObjectSize erasedKey
        let (s, _) ← s.removeForExistingKey erasedKey
        eraseForCapacity maxBytes fuel s
      else return s

/-- Track a new key within the budget; returns its reward. -/
def addForNewKey (maxBytes : Nat) (edge : EdgeContext) (s : LocalUncachedLru) (key : Key)
    (value : Value) (isGlobalCached : Bool) : Option (LocalUncachedLru × Reward) := do
  let (s, reward) ← s.addKey edge key value isGlobalCached
  let s ← s.eraseForCapacity maxBytes (s.records.perkeyMetadataList.toList.length + 1)
  return (s, reward)

end LocalUncachedLru

/-! ## The cache without iterators -/

namespace LruRecords

def addKey (edge : EdgeContext) (w : LruRecords HomoKeyLevelMetadata) (key : Key) (value : Value)
    (isGlobalCached : Bool) : Option (LruRecords HomoKeyLevelMetadata × Reward) :=
  if h : key ∉ w.keys ∧ bytesOfKeys w.keys + key.getKeyLength < uint64Limit then do
    let t ← newRecord edge (assignGroup w.curGroupId w.curGroupKeycnt).1 key value isGlobalCached
      false 1 1
    return (w.insertKey key t h.1 h.2, KeyLevelMetadata.calculateReward edge t)
  else none

/-- The new popularity of a key whose record is `t`; returns its reward. -/
def updatePopularity (edge : EdgeContext) (w : LruRecords HomoKeyLevelMetadata) (key : Key)
    (t : HomoKeyLevelMetadata) : Option (LruRecords HomoKeyLevelMetadata × Reward) := do
  let t ← KeyLevelMetadata.calculateAndUpdatePopularity edge t
  return (w.setRecord key t, KeyLevelMetadata.calculateReward edge t)

def updateNoValueStats (edge : EdgeContext) (w : LruRecords HomoKeyLevelMetadata) (key : Key)
    (isGlobalCached : Bool) : Option (LruRecords HomoKeyLevelMetadata × Reward) := do
  let t ← w.record key
  let t ← t.updateNoValueDynamicMetadata false isGlobalCached 1
  ((w.setRecord key t).moveToFront key).updatePopularity edge key t

def updateValueStats (edge : EdgeContext) (w : LruRecords HomoKeyLevelMetadata) (key : Key)
    (value originalValue : Value) : Option (LruRecords HomoKeyLevelMetadata × Reward) := do
  let t ← w.record key
  let t ← t.updateValueDynamicMetadata (objectSize key value) (objectSize key originalValue)
  (w.setRecord key t).updatePopularity edge key t

def updateIsGlobalCached (edge : EdgeContext) (w : LruRecords HomoKeyLevelMetadata) (key : Key)
    (isGetrsp isGlobalCached : Bool) : Option (LruRecords HomoKeyLevelMetadata × Reward) := do
  require (isGetrsp = true)
  let t ← w.record key
  let t ← t.changeIsGlobalCached isGlobalCached
  return (w.setRecord key t, KeyLevelMetadata.calculateReward edge t)

def remove (w : LruRecords HomoKeyLevelMetadata) (key : Key) :
    Option (LruRecords HomoKeyLevelMetadata × HomoKeyLevelMetadata) := do
  let t ← w.record key
  return (w.removeKey key, t)

def getSizeForCapacity (w : LruRecords HomoKeyLevelMetadata) : Option Nat := do
  let groups := w.groupIds.dedup.length
  let total ← uint64Add 0 (bytesOfKeys w.keys)
  let total ← uint64Add total (w.lru.length * HomoKeyLevelMetadata.getSizeForCapacity)
  let total ← uint64Add total (groups * 4)
  let total ← uint64Add total (groups * GroupLevelMetadata.getSizeForCapacity)
  let total ← uint64Add total (bytesOfKeys w.keys)
  uint64Add total (w.lru.length * 8)

def eraseForCapacity (maxBytes : Nat) : Nat → LruRecords HomoKeyLevelMetadata →
    Option (LruRecords HomoKeyLevelMetadata)
  | 0, _ => none
  | fuel + 1, w => do
      let size ← w.getSizeForCapacity
      if size > maxBytes then
        let erasedKey ← w.keys.getLast?
        let (w, _) ← w.remove erasedKey
        eraseForCapacity maxBytes fuel w
      else return w

def addForNewKey (maxBytes : Nat) (edge : EdgeContext) (w : LruRecords HomoKeyLevelMetadata)
    (key : Key) (value : Value) (isGlobalCached : Bool) :
    Option (LruRecords HomoKeyLevelMetadata × Reward) := do
  let (w, reward) ← w.addKey edge key value isGlobalCached
  let w ← w.eraseForCapacity maxBytes (w.lru.length + 1)
  return (w, reward)

end LruRecords

/-! ## The cache represents the records -/

/-- The cache `s` stands for the records `w`. -/
structure LocalUncachedLru.Represents (s : LocalUncachedLru) (w : LruRecords HomoKeyLevelMetadata) :
    Prop where
  records : s.records.Represents w
  exists_iff : ∀ key, s.isKeyExist key = true ↔ key ∈ w.keys
  places : ∀ key it, s.perkeyLookupTable.lookup key = some it →
    ∃ t, s.records.perkeyMetadataList.get it = some (key, t)
  tableBytes : s.perkeyLookupTableKeySize = bytesOfKeys w.keys

namespace LocalUncachedLru.Represents

variable {s : LocalUncachedLru} {w : LruRecords HomoKeyLevelMetadata} {key : Key}
  {t t' : HomoKeyLevelMetadata} {it : Nat}

theorem empty : Represents LocalUncachedLru.empty LruRecords.empty where
  records := PerkeyRecords.Represents.empty
  exists_iff key := by
    constructor
    · intro h
      cases h
    · intro h
      cases h
  places key it h := by cases h
  tableBytes := rfl

section Represents

variable (h : Represents s w)
include h

theorem lookup_eq_none (hr : w.record key = none) : s.perkeyLookupTable.lookup key = none := by
  have hnot := fun hexists => record_eq_none_iff.1 hr ((h.exists_iff key).1 hexists)
  rw [isKeyExist, isSome_iff_ne_none] at hnot
  exact not_not.1 hnot

theorem exists_place (hr : w.record key = some t) :
    ∃ it, s.perkeyLookupTable.lookup key = some it ∧
      s.records.perkeyMetadataList.get it = some (key, t) := by
  obtain ⟨it, hit⟩ := isSome_iff_exists.1
    ((h.exists_iff key).2 (mem_keys_of_record hr))
  obtain ⟨t', hget⟩ := h.places key it hit
  have hsame := (h.records.record_of_get hget).symm.trans hr
  cases hsame
  exact ⟨it, hit, hget⟩

theorem getkeyLevelMetadata (key : Key) : s.getkeyLevelMetadata key = w.record key := by
  rw [LocalUncachedLru.getkeyLevelMetadata]
  cases hr : w.record key with
  | none =>
    rw [h.lookup_eq_none hr]
    rfl
  | some t =>
    obtain ⟨it, hlookup, hget⟩ := h.exists_place hr
    simp only [hlookup, hget, some_bind, pure_def]

/-- Other records in the same places. -/
theorem of_records {c : PerkeyRecords HomoKeyLevelMetadata} {w' : LruRecords HomoKeyLevelMetadata}
    (hrecords : c.Represents w') (hperm : w'.keys.Perm w.keys)
    (hget : ∀ it key t, s.records.perkeyMetadataList.get it = some (key, t) →
      ∃ t', c.perkeyMetadataList.get it = some (key, t')) :
    Represents { s with records := c } w' where
  records := hrecords
  exists_iff key := (h.exists_iff key).trans hperm.mem_iff.symm
  places key it hit := by
    obtain ⟨t, ht⟩ := h.places key it hit
    exact hget it key t ht
  tableBytes := h.tableBytes.trans (bytesOfKeys_perm hperm).symm

theorem setRecord (hget : s.records.perkeyMetadataList.get it = some (key, t))
    (hgroup : t'.base.groupId = t.base.groupId) :
    Represents { s with records := { s.records with
        perkeyMetadataList := s.records.perkeyMetadataList.set it (key, t') } }
      (w.setRecord key t') := by
  refine h.of_records (h.records.setRecord hget hgroup) (by rw [keys_setRecord]) ?_
  intro it' key' u hu
  by_cases hit : it' = it
  · have hsame := hu.symm.trans (hit ▸ hget)
    cases hsame
    exact ⟨t', (get_set hget).trans (if_pos hit)⟩
  · exact ⟨u, (get_set hget).trans ((if_neg hit).trans hu)⟩

theorem moveToFront (hget : s.records.perkeyMetadataList.get it = some (key, t)) :
    Represents { s with records := s.records.moveToFront it } (w.moveToFront key) :=
  h.of_records (h.records.moveToFront hget) (w.perm_moveToFront key)
    fun _ _ u hu => ⟨u, get_moveToFront.trans hu⟩

theorem updatePopularity (hget : s.records.perkeyMetadataList.get it = some (key, t))
    (edge : EdgeContext) :
    Option.Rel (RelOutput Represents) (s.updatePopularity edge it)
      (w.updatePopularity edge key t) := by
  rw [LocalUncachedLru.updatePopularity, LruRecords.updatePopularity,
    PerkeyRecords.updatePerkeyMetadata_eq hget]
  cases hpop : KeyLevelMetadata.calculateAndUpdatePopularity edge t with
  | none => exact .none
  | some t' => exact .some ⟨h.setRecord hget (KeyLevelMetadata.popularity_keeps hpop).1, rfl⟩

theorem updateNoValueStats (edge : EdgeContext) (key : Key) (isGlobalCached : Bool) :
    Option.Rel (RelOutput Represents) (s.updateNoValueStatsForExistingKey edge key isGlobalCached)
      (w.updateNoValueStats edge key isGlobalCached) := by
  rw [updateNoValueStatsForExistingKey, LruRecords.updateNoValueStats]
  cases hr : w.record key with
  | none =>
    rw [h.lookup_eq_none hr]
    exact .none
  | some t =>
    obtain ⟨it, hlookup, hget⟩ := h.exists_place hr
    simp only [hlookup, bind_eq_bind, bind_some,
      PerkeyRecords.updatePerkeyMetadata_eq hget]
    cases ht : t.updateNoValueDynamicMetadata false isGlobalCached 1 with
    | none => exact .none
    | some t' =>
      have hset := h.setRecord hget (HomoKeyLevelMetadata.noValue_keeps ht).1
      have hget' := (get_set (a := (key, t')) hget).trans (if_pos rfl)
      have hmove := hset.moveToFront hget'
      have hgetm : ((s.records.perkeyMetadataList.set it (key, t')).moveToFront it).get it =
          some (key, t') := get_moveToFront.trans hget'
      obtain ⟨group, hgroup, -⟩ :=
        hmove.records.exists_group (hmove.records.record_of_get hgetm)
      have hgroup' : ((PerkeyRecords.moveToFront { s.records with
          perkeyMetadataList := s.records.perkeyMetadataList.set it (key, t') }
          it).pergroupMetadataMap).lookup t'.base.groupId = some group := hgroup
      simp only [map_some, bind_some, hgroup']
      exact hmove.updatePopularity hgetm edge

theorem updateValueStats (edge : EdgeContext) (key : Key) (value originalValue : Value) :
    Option.Rel (RelOutput Represents)
      (s.updateValueStatsForExistingKey edge key value originalValue)
      (w.updateValueStats edge key value originalValue) := by
  rw [updateValueStatsForExistingKey, LruRecords.updateValueStats]
  cases hr : w.record key with
  | none =>
    rw [h.lookup_eq_none hr]
    exact .none
  | some t =>
    obtain ⟨it, hlookup, hget⟩ := h.exists_place hr
    simp only [hlookup, some_bind, PerkeyRecords.updatePerkeyMetadata_eq hget]
    cases ht : t.updateValueDynamicMetadata (objectSize key value)
      (objectSize key originalValue) with
    | none => exact .none
    | some t' =>
      have hset := h.setRecord hget (HomoKeyLevelMetadata.value_spec ht).1
      have hget' := (get_set (a := (key, t')) hget).trans (if_pos rfl)
      obtain ⟨group, hgroup, hpos⟩ :=
        hset.records.exists_group (hset.records.record_of_get hget')
      have hgroup' : s.records.pergroupMetadataMap.lookup t'.base.groupId = some group := hgroup
      simp only [map_some, some_bind, hgroup',
        GroupLevelMetadata.updateValueStatsForInGroupKey, require_bind hpos, pure_def]
      exact hset.updatePopularity hget' edge

theorem updateIsGlobalCached (edge : EdgeContext) (key : Key) (isGetrsp isGlobalCached : Bool) :
    Option.Rel (RelOutput Represents)
      (s.updateIsGlobalCachedForExistingKey edge key isGetrsp isGlobalCached)
      (w.updateIsGlobalCached edge key isGetrsp isGlobalCached) := by
  refine rel_require_bind Iff.rfl fun _ => ?_
  cases hr : w.record key with
  | none =>
    rw [h.lookup_eq_none hr]
    exact .none
  | some t =>
    obtain ⟨it, hlookup, hget⟩ := h.exists_place hr
    simp only [hlookup, some_bind, PerkeyRecords.updatePerkeyMetadata_eq hget]
    cases ht : t.changeIsGlobalCached isGlobalCached with
    | none => exact .none
    | some t' =>
      obtain ⟨-, hsame⟩ := require_bind_iff.1 ht
      cases hsame
      exact .some ⟨h.setRecord hget rfl, rfl⟩

theorem removeForExistingKey (key : Key) :
    Option.Rel (RelOutput Represents) (s.removeForExistingKey key) (w.remove key) := by
  rw [LocalUncachedLru.removeForExistingKey, remove]
  cases hr : w.record key with
  | none =>
    rw [h.lookup_eq_none hr]
    exact .none
  | some t =>
    obtain ⟨it, hlookup, hget⟩ := h.exists_place hr
    obtain ⟨c₁, c₂, hgroup, hnode, hrecords, hlist⟩ := h.records.exists_removed hget
    have hgroup' : s.records.removePergroupMetadata t.base.groupId = some c₁ := hgroup
    simp only [hlookup, hget, hgroup', hnode, some_bind, pure_def]
    refine .some ⟨?_, rfl⟩
    constructor
    case records => exact hrecords
    case exists_iff =>
      intro key'
      rw [isKeyExist, lookup_erase_eq, keys_removeKey, List.mem_filter,
        decide_eq_true_eq]
      split
      · next heq => exact iff_of_false Bool.false_ne_true fun hmem => hmem.2 heq
      · next heq => exact (h.exists_iff key').trans (and_iff_left heq).symm
    case places =>
      intro key' it' hit'
      rw [lookup_erase_eq] at hit'
      split at hit'
      · cases hit'
      · next heq =>
        obtain ⟨u, hu⟩ := h.places key' it' hit'
        refine ⟨u, ?_⟩
        rw [hlist]
        refine get_erase.trans ((if_neg ?_).trans hu)
        intro hit
        have hsame := hu.symm.trans (hit ▸ hget)
        cases hsame
        exact heq rfl
    case tableBytes =>
      rw [h.tableBytes]
      exact (bytesOfKeys_removeKey hr).symm

theorem addKey (edge : EdgeContext) (key : Key) (value : Value) (isGlobalCached : Bool) :
    Option.Rel (RelOutput Represents) (s.addKey edge key value isGlobalCached)
      (w.addKey edge key value isGlobalCached) := by
  rw [LocalUncachedLru.addKey, LruRecords.addKey]
  by_cases hnew : key ∈ w.keys
  · have hlookup : s.perkeyLookupTable.lookup key ≠ none :=
      isSome_iff_ne_none.1 ((h.exists_iff key).2 hnew)
    rw [dif_neg fun hand => hand.1 hnew, require_of_not hlookup]
    exact .none
  have hlookup : s.perkeyLookupTable.lookup key = none :=
    h.lookup_eq_none (record_eq_none_iff.2 hnew)
  by_cases hbytes : bytesOfKeys w.keys + key.getKeyLength < uint64Limit
  · rw [dif_pos ⟨hnew, hbytes⟩]
    simp only [hlookup, h.tableBytes, uint64Add_eq hbytes, require_bind, some_bind]
    refine rel_bind (h.records.addRecord hnew hbytes edge value isGlobalCached false 1 1) ?_
    rintro ⟨c, it, t'⟩ t ⟨rfl, rfl, hrecords, hget⟩
    refine .some ⟨?_, rfl⟩
    constructor
    case records => exact hrecords
    case exists_iff =>
      intro key'
      rw [isKeyExist, lookup_insert_eq]
      show _ ↔ key' ∈ key :: w.keys
      rw [List.mem_cons]
      by_cases heq : key' = key
      · rw [if_pos heq]
        exact iff_of_true rfl (.inl heq)
      · rw [if_neg heq, or_iff_right heq]
        exact h.exists_iff key'
    case places =>
      intro key' it' hit'
      rw [lookup_insert_eq] at hit'
      by_cases heq : key' = key
      · rw [if_pos heq] at hit'
        cases hit'
        exact ⟨t', (hget _).trans ((if_pos rfl).trans (by rw [heq]))⟩
      · rw [if_neg heq] at hit'
        obtain ⟨u, hu⟩ := h.places key' it' hit'
        exact ⟨u, (hget _).trans ((if_neg (Nat.ne_of_lt (lt_next_of_get hu))).trans hu)⟩
    case tableBytes => exact (Nat.add_comm _ _).trans (bytesOfKeys_cons key w.keys).symm
  · rw [dif_neg fun hand => hbytes hand.2]
    simp only [hlookup, h.tableBytes, uint64Add_eq_none (Nat.not_lt.1 hbytes), require_bind_of,
      bind_eq_bind, bind_none]
    exact .none

theorem getSizeForCapacity : s.getSizeForCapacity = w.getSizeForCapacity := by
  have hgroups : s.records.pergroupMetadataMap.entries.length = w.groupIds.dedup.length :=
    length_entries _ (List.nodup_dedup _) fun groupId => by
      rw [h.records.group, isSome_group_iff, List.mem_dedup]
  have htable : s.perkeyLookupTable.entries.length = w.lru.length :=
    (length_entries _ w.nodup h.exists_iff).trans (List.length_map _)
  simp only [LocalUncachedLru.getSizeForCapacity, LruRecords.getSizeForCapacity, h.records.list,
    hgroups, htable, h.records.listBytes, h.tableBytes]

theorem back_eq :
    s.records.perkeyMetadataList.back.map (fun node => node.2.1) = w.keys.getLast? := by
  cases hback : s.records.perkeyMetadataList.back with
  | none =>
    have hnil := back_eq_none_iff.1 hback
    rw [h.records.list] at hnil
    rw [keys, hnil]
    rfl
  | some node =>
    obtain ⟨it, key, t⟩ := node
    have hlast := toList_getLast_of_back hback
    rw [h.records.list] at hlast
    rw [keys, List.getLast?_map, hlast]
    rfl

end Represents

theorem eraseForCapacity (maxBytes : Nat) (h : Represents s w) (fuel : Nat) :
    Option.Rel Represents (s.eraseForCapacity maxBytes fuel)
      (w.eraseForCapacity maxBytes fuel) := by
  induction fuel generalizing s w with
  | zero => exact .none
  | succ fuel ih =>
    rw [LocalUncachedLru.eraseForCapacity, LruRecords.eraseForCapacity, h.getSizeForCapacity]
    apply rel_bind_same
    intro size _
    split
    · rw [← h.back_eq]
      cases hback : s.records.perkeyMetadataList.back with
      | none => exact .none
      | some node =>
        obtain ⟨it, key, t⟩ := node
        -- the size of the dropped object is read before the key is removed
        have hrecord := h.records.record_of_get (get_of_back hback)
        have hsize : s.getObjectSize key = some t.base.objectSize := by
          rw [getObjectSize, h.getkeyLevelMetadata, hrecord]
          rfl
        simp only [map_some, some_bind, hsize]
        exact rel_bind (h.removeForExistingKey key) fun _ _ h' => ih h'.1
    · exact .some h

theorem addForNewKey (maxBytes : Nat) (h : Represents s w) (edge : EdgeContext) (key : Key)
    (value : Value) (isGlobalCached : Bool) :
    Option.Rel (RelOutput Represents) (s.addForNewKey maxBytes edge key value isGlobalCached)
      (w.addForNewKey maxBytes edge key value isGlobalCached) := by
  refine rel_bind (h.addKey edge key value isGlobalCached) ?_
  rintro ⟨s', r⟩ ⟨w', r'⟩ ⟨h', rfl⟩
  simp only [h'.records.list]
  exact rel_bind (h'.eraseForCapacity maxBytes _) fun _ _ h'' => .some ⟨h'', rfl⟩

end LocalUncachedLru.Represents

end Covered.Cache
