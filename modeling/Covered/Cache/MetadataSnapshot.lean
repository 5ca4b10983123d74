import Covered.Cache.MetadataRepresentation
import Covered.Cache.LocalUncachedLru

/-!
# Dumping and loading the metadata containers

A container of records is dumped part by part: the LRU list in its order, the groups, the rewards in
their order, and the counters. The lookup table is not written, since its places mean nothing in
another process: it is built again from the places that the loaded keys get. Counts of elements are
unsigned 32-bit numbers, and the load reads as many elements as the count says. A dump is a record
of its parts: the order and the widths of the other fields in the file are not modelled.

A loaded container stands for the records that were dumped, except for what the record type does not
write: the record of a cached key loses the frequency of its redirected rewards, and the popularity
that follows from it is whatever the memory has.
-/

set_option autoImplicit false

namespace Covered.Cache

open Common Lib Lib.Checked Lib.SortBy UnorderedMap LinkedList List LruRecords KeyLevelMetadata

/-! ## Records -/

/-- What is written of the record of a cached key. -/
structure HeteroKeyLevelMetadata.Dump where
  base : KeyLevelMetadataBase
  redirectedFrequency : Nat
  redirectedPopularity : Popularity
  isNeighborCached : Bool
deriving DecidableEq

namespace HeteroKeyLevelMetadata

def dumpKeyLevelMetadata (m : HeteroKeyLevelMetadata) : Dump where
  base := m.base
  redirectedFrequency := m.redirectedFrequency
  redirectedPopularity := m.redirectedPopularity
  isNeighborCached := m.isNeighborCached

/-- A new record with what was written. No constructor sets the popularity of the redirected
rewards, so it is what the memory has. -/
def loadKeyLevelMetadata (uninitialized : Popularity) (d : Dump) : HeteroKeyLevelMetadata where
  base := d.base
  redirectedFrequency := d.redirectedFrequency
  p2pRedirectedRewardFreq := 0
  redirectedPopularity := d.redirectedPopularity
  redirectedRewardPopularity := uninitialized
  isNeighborCached := d.isNeighborCached

/-- The record comes back if it has no redirected rewards and the memory has the right
popularity. -/
theorem load_dump_eq_iff (m : HeteroKeyLevelMetadata) (uninitialized : Popularity) :
    loadKeyLevelMetadata uninitialized m.dumpKeyLevelMetadata = m ↔
      m.p2pRedirectedRewardFreq = 0 ∧ m.redirectedRewardPopularity = uninitialized := by
  constructor
  · intro h
    rw [← h]
    exact ⟨rfl, rfl⟩
  · rintro ⟨hfreq, hpopularity⟩
    cases m
    cases hfreq
    cases hpopularity
    rfl

end HeteroKeyLevelMetadata

namespace HomoKeyLevelMetadata

def dumpKeyLevelMetadata (m : HomoKeyLevelMetadata) : KeyLevelMetadataBase × Bool :=
  (m.base, m.isGlobalCached)

def loadKeyLevelMetadata (d : KeyLevelMetadataBase × Bool) : HomoKeyLevelMetadata where
  base := d.1
  isGlobalCached := d.2

end HomoKeyLevelMetadata

/-! ## The list and the groups -/

/-- What is written of the LRU list and the groups; `D` is what is written of a record. -/
structure PerkeyRecordsDump (D : Type) where
  perkeyMetadataListKeySize : Nat
  perkeyMetadataListSize : Nat
  perkeyMetadataList : List (Key × D)
  curGroupId : Nat
  curGroupKeycnt : Nat
  pergroupMetadataMapSize : Nat
  pergroupMetadataMap : List ((_ : Nat) × GroupLevelMetadata)

namespace PerkeyRecords

variable {T D : Type}

def dump (dumpKeyLevelMetadata : T → D) (c : PerkeyRecords T) : PerkeyRecordsDump D where
  perkeyMetadataListKeySize := c.perkeyMetadataListKeySize
  perkeyMetadataListSize := c.perkeyMetadataList.toList.length % uint32Limit
  perkeyMetadataList :=
    c.perkeyMetadataList.toList.map fun pair => (pair.1, dumpKeyLevelMetadata pair.2)
  curGroupId := c.curGroupId
  curGroupKeycnt := c.curGroupKeycnt
  pergroupMetadataMapSize := c.pergroupMetadataMap.entries.length % uint32Limit
  pergroupMetadataMap := c.pergroupMetadataMap.entries

/-- The list and the groups, with the places of the keys. -/
def load (loadKeyLevelMetadata : Key → D → T) (d : PerkeyRecordsDump D) :
    PerkeyRecords T × UnorderedMap Key Nat :=
  let pairs := (d.perkeyMetadataList.take d.perkeyMetadataListSize).map fun pair =>
    (pair.1, loadKeyLevelMetadata pair.1 pair.2)
  let (list, iters) := LinkedList.load LinkedList.pushBack Prod.fst pairs
  ({
    perkeyMetadataListKeySize := d.perkeyMetadataListKeySize
    perkeyMetadataList := list
    curGroupId := d.curGroupId
    curGroupKeycnt := d.curGroupKeycnt
    pergroupMetadataMap :=
      UnorderedMap.ofEntries (d.pergroupMetadataMap.take d.pergroupMetadataMapSize) }, iters)

end PerkeyRecords

/-! ## The containers -/

/-- What is written of a container with rewards. -/
structure CacheMetadataDump (D : Type) where
  records : PerkeyRecordsDump D
  sortedRewardMultimapKeySize : Nat
  sortedRewardMultimapSize : Nat
  sortedRewardMultimap : List (Reward × Key)
  perkeyLookupTableKeySize : Nat

namespace CacheMetadataBase

variable {T D : Type}

def dumpLocalMetadata (dumpKeyLevelMetadata : T → D) (s : CacheMetadataBase T) :
    CacheMetadataDump D where
  records := s.records.dump dumpKeyLevelMetadata
  sortedRewardMultimapKeySize := s.sortedRewardMultimapKeySize
  sortedRewardMultimapSize := s.sortedRewardMultimap.toList.length % uint32Limit
  sortedRewardMultimap := s.sortedRewardMultimap.toList
  perkeyLookupTableKeySize := s.perkeyLookupTableKeySize

/-- The container that was dumped, whatever it was before. The lookup table has the keys with a
record and a reward. -/
def loadLocalMetadata (loadKeyLevelMetadata : Key → D → T) (d : CacheMetadataDump D) :
    CacheMetadataBase T :=
  let (records, listIters) := PerkeyRecords.load loadKeyLevelMetadata d.records
  let (multimap, rewardIters) := LinkedList.load (LinkedList.insertSorted Prod.fst) Prod.snd
    (d.sortedRewardMultimap.take d.sortedRewardMultimapSize)
  { records := records
    sortedRewardMultimapKeySize := d.sortedRewardMultimapKeySize
    sortedRewardMultimap := multimap
    perkeyLookupTableKeySize := d.perkeyLookupTableKeySize
    perkeyLookupTable := listIters.filterMapVal fun key listIter =>
      (rewardIters.lookup key).map fun rewardIter => ⟨listIter, rewardIter⟩ }

end CacheMetadataBase

/-- What is written of the small LRU cache. -/
structure LocalUncachedLruDump where
  records : PerkeyRecordsDump (KeyLevelMetadataBase × Bool)
  perkeyLookupTableKeySize : Nat

namespace LocalUncachedLru

def dumpLocalUncachedLru (s : LocalUncachedLru) : LocalUncachedLruDump where
  records := s.records.dump HomoKeyLevelMetadata.dumpKeyLevelMetadata
  perkeyLookupTableKeySize := s.perkeyLookupTableKeySize

def loadLocalUncachedLru (d : LocalUncachedLruDump) : LocalUncachedLru :=
  let (records, listIters) :=
    PerkeyRecords.load (fun _ => HomoKeyLevelMetadata.loadKeyLevelMetadata) d.records
  { records := records
    perkeyLookupTableKeySize := d.perkeyLookupTableKeySize
    perkeyLookupTable := UnorderedMap.ofEntries listIters.entries }

end LocalUncachedLru

/-! ## What a loaded container stands for -/

namespace LruRecords

variable {T : Type} {w : LruRecords T} {f : Key → T → T} {key : Key} {t : T}

/-- Every record changed by `f`, in its place. -/
def mapRecords (w : LruRecords T) (f : Key → T → T) : LruRecords T where
  lru := w.lru.map fun pair => (pair.1, f pair.1 pair.2)
  curGroupId := w.curGroupId
  curGroupKeycnt := w.curGroupKeycnt
  nodup := by
    rw [KeyedList.NodupKeys, List.map_map]
    exact w.nodup
  bounded := by
    rw [List.map_map]
    exact w.bounded

@[simp] theorem keys_mapRecords : (w.mapRecords f).keys = w.keys := map_map

theorem record_mapRecords (h : w.record key = some t) :
    (w.mapRecords f).record key = some (f key t) :=
  record_eq_some_iff.2 (mem_map.2 ⟨(key, t), record_eq_some_iff.1 h, rfl⟩)

theorem lru_mapRecords_eq_self (h : ∀ key t, w.record key = some t → f key t = t) :
    (w.mapRecords f).lru = w.lru := by
  refine (map_congr_left fun pair hpair => ?_).trans (map_id _)
  have hrecord : w.record pair.1 = some pair.2 := record_eq_some_iff.2 hpair
  rw [h _ _ hrecord]
  rfl

theorem mapRecords_eq_self (h : ∀ key t, w.record key = some t → f key t = t) :
    w.mapRecords f = w := by
  have hlru := lru_mapRecords_eq_self h
  cases w
  simp only [mapRecords] at hlru ⊢
  simp only [hlru]

theorem groupIds_mapRecords [KeyLevelMetadata T]
    (hgroup : ∀ key t, getGroupId (f key t) = getGroupId t) :
    (w.mapRecords f).groupIds = w.groupIds := by
  rw [groupIds, groupIds]
  refine map_map.trans (map_congr_left fun pair _ => ?_)
  exact hgroup pair.1 pair.2

end LruRecords

/-- As many records come back as the count says. -/
theorem PerkeyRecords.length_load_dump {T D : Type} (dumpKey : T → D)
    (loadKey : Key → D → T) (c : PerkeyRecords T) :
    (PerkeyRecords.load loadKey (c.dump dumpKey)).1.perkeyMetadataList.toList.length =
      c.perkeyMetadataList.toList.length % uint32Limit := by
  have hlist := (load_spec Prod.fst
    (((c.dump dumpKey).perkeyMetadataList.take (c.dump dumpKey).perkeyMetadataListSize).map
      fun pair => (pair.1, loadKey pair.1 pair.2))
    (fun _ _ _ => get_pushBack) (fun _ _ _ _ => toList_pushBack)).1
  refine (congrArg length hlist).trans ?_
  rw [length_map, length_take, PerkeyRecords.dump, length_map]
  exact Nat.min_eq_left (Nat.mod_le _ _)

namespace PerkeyRecords.Represents

variable {T D : Type} [KeyLevelMetadata T] {c : PerkeyRecords T} {w : LruRecords T}

/-- The loaded list and groups stand for the dumped records, and the places are those of the
keys. -/
theorem load_dump (dumpKey : T → D) (loadKey : Key → D → T) (h : c.Represents w)
    (hcount : w.lru.length < uint32Limit)
    (hgroup : ∀ key t, getGroupId (loadKey key (dumpKey t)) =
      getGroupId t) :
    (PerkeyRecords.load loadKey (c.dump dumpKey)).1.Represents
        (w.mapRecords fun key t => loadKey key (dumpKey t)) ∧
      LinkedList.Indexed Prod.fst
        ((PerkeyRecords.load loadKey (c.dump dumpKey)).1.perkeyMetadataList,
          (PerkeyRecords.load loadKey (c.dump dumpKey)).2) := by
  have hgroups : c.pergroupMetadataMap.entries.length = w.groupIds.dedup.length :=
    length_entries _ (nodup_dedup _) fun groupId => by
      rw [h.group, isSome_group_iff, mem_dedup]
  have hle : w.groupIds.dedup.length ≤ w.lru.length := by
    have hsub := (dedup_sublist w.groupIds).length_le
    rwa [groupIds, length_map] at hsub
  -- all elements are read again
  have hpairs : ((c.dump dumpKey).perkeyMetadataList.take
      (c.dump dumpKey).perkeyMetadataListSize).map (fun pair => (pair.1, loadKey pair.1 pair.2)) =
        (w.mapRecords fun key t => loadKey key (dumpKey t)).lru := by
    rw [dump, h.list, Nat.mod_eq_of_lt hcount, take_of_length_le (by rw [length_map]),
      map_map]
    rfl
  have hentries : (c.dump dumpKey).pergroupMetadataMap.take
      (c.dump dumpKey).pergroupMetadataMapSize = c.pergroupMetadataMap.entries := by
    refine take_of_length_le (Nat.le_of_eq ?_)
    have hlt : c.pergroupMetadataMap.entries.length < uint32Limit := by
      rw [hgroups]
      exact Nat.lt_of_le_of_lt hle hcount
    exact (Nat.mod_eq_of_lt hlt).symm
  obtain ⟨hlist, hindexed⟩ := load_spec Prod.fst
    (w.mapRecords fun key t => loadKey key (dumpKey t)).lru
    (fun _ _ _ => get_pushBack) (fun _ _ _ _ => toList_pushBack)
  rw [← hpairs] at hlist hindexed
  refine ⟨?_, hindexed⟩
  constructor
  case list => exact hlist.trans hpairs
  case listBytes =>
    rw [keys_mapRecords]
    exact h.listBytes
  case groupId => exact h.groupId
  case groupKeycnt => exact h.groupKeycnt
  case group =>
    intro groupId
    have hsame : (w.mapRecords fun key t => loadKey key (dumpKey t)).groupIds = w.groupIds :=
      groupIds_mapRecords hgroup
    rw [group_congr (List.Perm.of_eq hsame), ← h.group]
    show (ofEntries _).lookup groupId = _
    rw [hentries, lookup_ofEntries]
    rfl

end PerkeyRecords.Represents

namespace TrackedKeys

variable {T : Type} {v : TrackedKeys T} {f : Key → T → T}

/-- Every record changed by `f`; the rewards stay. -/
def mapRecords (v : TrackedKeys T) (f : Key → T → T) : TrackedKeys T where
  toLruRecords := v.toLruRecords.mapRecords f
  rewards := v.rewards
  perm := by
    have hkeys : (v.toLruRecords.mapRecords f).keys = v.keys := LruRecords.keys_mapRecords
    rw [LruRecords.keys] at hkeys
    rw [hkeys]
    exact v.perm
  ascending := v.ascending

theorem mapRecords_eq_self (h : ∀ key t, v.record key = some t → f key t = t) :
    v.mapRecords f = v := by
  have hrecords := LruRecords.mapRecords_eq_self h
  cases v
  simp only [mapRecords] at hrecords ⊢
  simp only [hrecords]

end TrackedKeys

namespace Represents

variable {T D : Type} [KeyLevelMetadata T] {s : CacheMetadataBase T} {v : TrackedKeys T}

/-- The loaded multimap has the dumped rewards in the same order. -/
theorem load_rewards (h : Represents s v) (hcount : v.lru.length < uint32Limit) :
    (load (insertSorted Prod.fst) Prod.snd
        (s.sortedRewardMultimap.toList.take
          (s.sortedRewardMultimap.toList.length % uint32Limit))).1.toList = v.rewards ∧
      LinkedList.Indexed Prod.snd (load (insertSorted Prod.fst) Prod.snd
        (s.sortedRewardMultimap.toList.take
          (s.sortedRewardMultimap.toList.length % uint32Limit))) := by
  have hlt : v.rewards.length < uint32Limit := v.length_rewards ▸ hcount
  rw [h.multimap, Nat.mod_eq_of_lt hlt, take_length]
  refine load_spec Prod.snd v.rewards
    (fun _ _ _ => get_insertSorted Prod.fst) ?_
  intro l a rest hitems
  -- what is there already and the next element are the first ones of all
  have hfirst : v.rewards = (l.toList ++ [a]) ++ rest := by
    rw [← hitems, append_assoc, singleton_append]
  have hascending := v.ascending
  rw [hfirst] at hascending
  exact toList_insertSorted_of_ascending
    (hascending.sublist (sublist_append_left _ _))

/-- The loaded container stands for the dumped records, with the rewards in the same order. -/
theorem load_dump (dumpKey : T → D) (loadKey : Key → D → T) (h : Represents s v)
    (hcount : v.lru.length < uint32Limit)
    (hgroup : ∀ key t, getGroupId (loadKey key (dumpKey t)) =
      getGroupId t) :
    Represents (CacheMetadataBase.loadLocalMetadata loadKey (s.dumpLocalMetadata dumpKey))
      (v.mapRecords fun key t => loadKey key (dumpKey t)) := by
  obtain ⟨hrecords, hlist⟩ := h.records.load_dump dumpKey loadKey hcount hgroup
  obtain ⟨hrewards, hmultimap⟩ := h.load_rewards hcount
  have hkeys : (v.mapRecords fun key t => loadKey key (dumpKey t)).keys = v.keys :=
    keys_mapRecords
  constructor
  case records => exact hrecords
  case multimap => exact hrewards
  case exists_iff =>
    intro key
    have hlookup := hlist.exists_iff key
    rw [hrecords.list] at hlookup
    have hreward := hmultimap.exists_iff key
    rw [hrewards, v.perm.mem_iff] at hreward
    have hboth : ∀ (a b : Option Nat),
        (a.bind fun it => b.map fun it' => (⟨it, it'⟩ : LookupMetadata)).isSome = true ↔
          a.isSome = true ∧ b.isSome = true := by
      intro a b
      cases a <;> cases b <;> simp
    show ((filterMapVal _ _).lookup key).isSome = true ↔ _
    rw [lookup_filterMapVal]
    have hkeys' : (v.toLruRecords.mapRecords fun key t => loadKey key (dumpKey t)).keys = v.keys :=
      hkeys
    rw [← LruRecords.keys, hkeys'] at hlookup
    rw [hkeys]
    exact (hboth _ _).trans ((and_congr hlookup hreward).trans (and_self_iff))
  case places =>
    intro key entry hentry
    have hlookup : (filterMapVal _ _).lookup key = some entry := hentry
    rw [lookup_filterMapVal, Option.bind_eq_some_iff] at hlookup
    obtain ⟨listIter, hlistIter, hlookup⟩ := hlookup
    obtain ⟨rewardIter, hrewardIter, rfl⟩ := Option.map_eq_some_iff.1 hlookup
    obtain ⟨⟨k, t⟩, hnode, rfl⟩ := hlist.places key listIter hlistIter
    obtain ⟨⟨r, k'⟩, hreward, hkey⟩ := hmultimap.places _ rewardIter hrewardIter
    have hkey : k' = k := hkey
    subst hkey
    exact ⟨t, r, hentry, hnode, hreward⟩
  case rewardBytes =>
    rw [hkeys]
    exact h.rewardBytes
  case tableBytes =>
    rw [hkeys]
    exact h.tableBytes

end Represents

namespace LocalUncachedLru.Represents

variable {s : LocalUncachedLru} {w : LruRecords HomoKeyLevelMetadata}

/-- The loaded cache stands for the same records. -/
theorem load_dump (h : s.Represents w) (hcount : w.lru.length < uint32Limit) :
    (loadLocalUncachedLru s.dumpLocalUncachedLru).Represents w := by
  obtain ⟨hrecords, hlist⟩ := h.records.load_dump HomoKeyLevelMetadata.dumpKeyLevelMetadata
    (fun _ => HomoKeyLevelMetadata.loadKeyLevelMetadata) hcount fun _ _ => rfl
  have hself : (w.mapRecords fun _ t =>
      HomoKeyLevelMetadata.loadKeyLevelMetadata t.dumpKeyLevelMetadata) = w :=
    mapRecords_eq_self fun _ _ _ => rfl
  rw [hself] at hrecords
  constructor
  case records => exact hrecords
  case exists_iff =>
    intro key
    have hlookup := hlist.exists_iff key
    rw [hrecords.list] at hlookup
    show ((ofEntries _).lookup key).isSome = true ↔ _
    rw [lookup_ofEntries]
    exact hlookup
  case places =>
    intro key it hit
    have hit : (ofEntries _).lookup key = some it := hit
    rw [lookup_ofEntries] at hit
    obtain ⟨⟨k, t⟩, hnode, rfl⟩ := hlist.places key it hit
    exact ⟨t, hnode⟩
  case tableBytes => exact h.tableBytes

end LocalUncachedLru.Represents

end Covered.Cache
