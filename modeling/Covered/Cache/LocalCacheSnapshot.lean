import Covered.Cache.LocalCacheAlignment
import Covered.Cache.LocalCacheBehavior
import Covered.Cache.MetadataSnapshot

/-!
# Snapshots of a local cache

A snapshot has the cached objects and what the three containers of metadata dump. The load admits
the objects to a new cache, one after the other, and then replaces the containers by what was
dumped. Only what is written is modelled, not the bytes of the file.

`Restored` says that nothing is lost: the records, the groups, the counters and the orders are those
of the dumped cache, and every sequence of requests is answered in the same way. The record of a
cached key comes back only if it has no frequency of redirected rewards and the memory of the new
record happens to have the right popularity; `restored_iff` says that nothing else is in the way.
-/

set_option autoImplicit false

namespace Covered.Cache

open Common Lib Lib.Checked Lib.Execution List HeteroKeyLevelMetadata

/-! ## Dump and load -/

/-- What is written of the containers of metadata. -/
structure LocalCacheDump where
  localCachedMetadata : CacheMetadataDump HeteroKeyLevelMetadata.Dump
  localUncachedMetadata : CacheMetadataDump (KeyLevelMetadataBase × Bool)
  localUncachedLru : LocalUncachedLruDump

namespace LocalCache

/-- The cached objects. -/
def objects (c : LocalCache) : List (Key × Value) :=
  c.coveredCache.entries.map fun object => (object.1, object.2)

def dumpCacheMetadata (c : LocalCache) : LocalCacheDump where
  localCachedMetadata :=
    c.localCachedMetadata.dumpLocalMetadata HeteroKeyLevelMetadata.dumpKeyLevelMetadata
  localUncachedMetadata :=
    c.localUncachedMetadata.dumpLocalMetadata HomoKeyLevelMetadata.dumpKeyLevelMetadata
  localUncachedLru := c.localUncachedLru.dumpLocalUncachedLru

/-- The containers that were dumped, in the place of the present ones. The new record of a cached
key is in memory that has some popularity. -/
def loadCacheMetadata (uninitialized : Key → Popularity) (c : LocalCache) (d : LocalCacheDump) :
    LocalCache :=
  { c with
    localCachedMetadata := .loadLocalMetadata
      (fun key => HeteroKeyLevelMetadata.loadKeyLevelMetadata (uninitialized key))
      d.localCachedMetadata
    localUncachedMetadata := .loadLocalMetadata
      (fun _ => HomoKeyLevelMetadata.loadKeyLevelMetadata) d.localUncachedMetadata
    localUncachedLru := .loadLocalUncachedLru d.localUncachedLru }

/-- Admit the objects of a snapshot again. -/
def admitObjects (edge : EdgeContext) (c : LocalCache) (objects : List (Key × Value)) :
    Option LocalCache :=
  objects.foldlM (fun c object => (c.admitLocalCache edge object.1 object.2 false).map Prod.fst) c

/-- The part of `loadCacheSnapshot` that concerns the local cache. -/
def loadCacheSnapshot (edge : EdgeContext) (uninitialized : Key → Popularity) (c : LocalCache)
    (objects : List (Key × Value)) (d : LocalCacheDump) : Option LocalCache := do
  let c ← c.admitObjects edge objects
  return c.loadCacheMetadata uninitialized d

end LocalCache

/-! ## What came back -/

/-- The list of the records, the groups and the counters came back. -/
structure PerkeyRecords.Restored {T : Type} (c c' : PerkeyRecords T) : Prop where
  listKeySize : c'.perkeyMetadataListKeySize = c.perkeyMetadataListKeySize
  list : c'.perkeyMetadataList.toList = c.perkeyMetadataList.toList
  curGroupId : c'.curGroupId = c.curGroupId
  curGroupKeycnt : c'.curGroupKeycnt = c.curGroupKeycnt
  groups : ∀ groupId,
    c'.pergroupMetadataMap.lookup groupId = c.pergroupMetadataMap.lookup groupId

/-- The records, found by their keys and in LRU order, the keys by reward and the counters came
back. -/
structure CacheMetadataBase.Restored {T : Type} [KeyLevelMetadata T] (s s' : CacheMetadataBase T) :
    Prop where
  records : s.records.Restored s'.records
  keyLevelMetadata : ∀ key, s'.getkeyLevelMetadata key = s.getkeyLevelMetadata key
  multimapKeySize : s'.sortedRewardMultimapKeySize = s.sortedRewardMultimapKeySize
  multimap : s'.sortedRewardMultimap.toList = s.sortedRewardMultimap.toList
  tableKeySize : s'.perkeyLookupTableKeySize = s.perkeyLookupTableKeySize

/-- The records, found by their keys and in LRU order, and the counters came back. -/
structure LocalUncachedLru.Restored (s s' : LocalUncachedLru) : Prop where
  records : s.records.Restored s'.records
  keyLevelMetadata : ∀ key, s'.getkeyLevelMetadata key = s.getkeyLevelMetadata key
  tableKeySize : s'.perkeyLookupTableKeySize = s.perkeyLookupTableKeySize

theorem PerkeyRecords.Represents.restored {T : Type} [KeyLevelMetadata T] {c c' : PerkeyRecords T}
    {w : LruRecords T} (h : c.Represents w) (h' : c'.Represents w) : c.Restored c' where
  listKeySize := h'.listBytes.trans h.listBytes.symm
  list := h'.list.trans h.list.symm
  curGroupId := h'.groupId.trans h.groupId.symm
  curGroupKeycnt := h'.groupKeycnt.trans h.groupKeycnt.symm
  groups groupId := (h'.group groupId).trans (h.group groupId).symm

/-- Not more records come back than their count has in 32 bits. -/
theorem PerkeyRecords.Restored.length_lt {T D : Type} {c : PerkeyRecords T} (dumpKey : T → D)
    (loadKey : Key → D → T) (h : c.Restored (PerkeyRecords.load loadKey (c.dump dumpKey)).1) :
    c.perkeyMetadataList.toList.length < uint32Limit := by
  have hlength := PerkeyRecords.length_load_dump dumpKey loadKey c
  rw [h.list] at hlength
  exact hlength ▸ Nat.mod_lt _ (Nat.two_pow_pos 32)

theorem CacheMetadataBase.SameAs.restored {T : Type} [KeyLevelMetadata T]
    {s s' : CacheMetadataBase T} (h : s.SameAs s') : s.Restored s' := by
  have hmetadata := h.getkeyLevelMetadata
  have hmultimap := h.multimap
  obtain ⟨v, hs, hs'⟩ := h
  exact ⟨hs.records.restored hs'.records, fun key => (hmetadata key).symm,
    hs'.rewardBytes.trans hs.rewardBytes.symm, hmultimap.symm,
    hs'.tableBytes.trans hs.tableBytes.symm⟩

theorem LocalUncachedLru.SameAs.restored {s s' : LocalUncachedLru} (h : s.SameAs s') :
    s.Restored s' := by
  have hmetadata := h.getkeyLevelMetadata
  obtain ⟨w, hs, hs'⟩ := h
  exact ⟨hs.records.restored hs'.records, fun key => (hmetadata key).symm,
    hs'.tableBytes.trans hs.tableBytes.symm⟩

namespace LocalCache

/-- Nothing was lost. -/
structure Restored (c c' : LocalCache) : Prop where
  store : ∀ key, c'.coveredCache.lookup key = c.coveredCache.lookup key
  kvbytes : c'.internalKvbytes = c.internalKvbytes
  cached : c.localCachedMetadata.Restored c'.localCachedMetadata
  uncached : c.localUncachedMetadata.Restored c'.localUncachedMetadata
  lru : c.localUncachedLru.Restored c'.localUncachedLru
  behavior : ∀ tr, (∃ d, Runs request anyAction c tr d) ↔ ∃ d', Runs request anyAction c' tr d'

variable {c c' : LocalCache}

theorem SameAs.restored (h : SameAs c c') : Restored c c' where
  store key := (h.store key).symm
  kvbytes := h.kvbytes.symm
  cached := h.cached.restored
  uncached := h.uncached.restored
  lru := h.lru.restored
  behavior := h.runs_iff

/-! ## Admitting the objects again -/

/-- What an admission of a new key changes outside the metadata. -/
theorem admitLocalCache_eq_some {edge : EdgeContext} {key : Key} {value : Value}
    {isNeighborCached r : Bool} (hlookup : c.coveredCache.lookup key = none)
    (h : c.admitLocalCache edge key value isNeighborCached = some (c', r)) :
    c'.capacityBytes = c.capacityBytes ∧
      c'.maxBytesForUncachedObjects = c.maxBytesForUncachedObjects ∧
      c'.maxBytesForLocalUncachedLru = c.maxBytesForLocalUncachedLru ∧
      c'.coveredCache = c.coveredCache.insert key value ∧
      uint64Add c.internalKvbytes (objectSize key value) = some c'.internalKvbytes := by
  simp only [admitLocalCache, hlookup, bind_eq_some_iff, require_eq_some_iff, pure_eq_some_iff,
    Prod.mk.injEq] at h
  obtain ⟨_, -, kvbytes, hkvbytes, cached, -, uncached, -, lru, -, rfl, -⟩ := h
  exact ⟨rfl, rfl, rfl, rfl, hkvbytes⟩

variable {objects : List (Key × Value)}

/-- New objects that a cache has room for are admitted, and the store has them beside its own. -/
theorem exists_admitObjects (edge : EdgeContext) (h : Sound c)
    (hnodup : KeyedList.NodupKeys Prod.fst objects)
    (hnew : ∀ object ∈ objects, c.coveredCache.lookup object.1 = none)
    (hfits : ∀ object ∈ objects, Fits object.1 object.2 ∧
      c.isValidObjsize object.1 object.2 = true)
    (hroom : c.internalKvbytes + (objects.map fun object => pairSize object.1 object.2).sum <
      uint64Limit) :
    ∃ c', c.admitObjects edge objects = some c' ∧ Sound c' ∧
      c'.capacityBytes = c.capacityBytes ∧
      c'.maxBytesForUncachedObjects = c.maxBytesForUncachedObjects ∧
      c'.maxBytesForLocalUncachedLru = c.maxBytesForLocalUncachedLru ∧
      (∀ key value, c'.coveredCache.lookup key = some value ↔
        (key, value) ∈ objects ∨ c.coveredCache.lookup key = some value) ∧
      c'.internalKvbytes =
        c.internalKvbytes + (objects.map fun object => pairSize object.1 object.2).sum := by
  induction objects generalizing c with
  | nil =>
    refine ⟨c, rfl, h, rfl, rfl, rfl, fun key value => ?_, rfl⟩
    exact (or_iff_right not_mem_nil).symm
  | cons object rest ih =>
    rw [map_cons, sum_cons] at hroom
    obtain ⟨hmem, hrest⟩ := nodup_cons.1 hnodup
    have hlookup := hnew object mem_cons_self
    obtain ⟨hsize, hvalid⟩ := hfits object mem_cons_self
    obtain ⟨u, w, hsizes⟩ := h
    obtain ⟨d, hd, hsound⟩ := hsizes.exists_admit edge hlookup hsize hvalid (by omega)
      false
    obtain ⟨hcapacity, huncached, hlru, hstore, hkvbytes⟩ := admitLocalCache_eq_some hlookup hd
    rw [hsize.objectSize_eq, uint64Add_eq (by omega), Option.some.injEq] at hkvbytes
    -- the rest is new and has room after the first object too
    have hother : ∀ {key : Key}, key ≠ object.1 →
        d.coveredCache.lookup key = c.coveredCache.lookup key := by
      intro key hkey
      rw [hstore, UnorderedMap.lookup_insert_eq, if_neg hkey]
    have hne : ∀ o ∈ rest, o.1 ≠ object.1 := by
      intro o ho heq
      exact hmem (heq ▸ mem_map_of_mem ho)
    obtain ⟨c', hc', hsound', hcapacity', huncached', hlru', hstore', hkvbytes'⟩ := ih hsound hrest
      (fun o ho => (hother (hne o ho)).trans (hnew o (mem_cons_of_mem _ ho)))
      (fun o ho => by
        rw [isValidObjsize, hcapacity]
        exact hfits o (mem_cons_of_mem _ ho))
      (by rw [← hkvbytes]; omega)
    refine ⟨c', ?_, hsound', hcapacity'.trans hcapacity, huncached'.trans huncached,
      hlru'.trans hlru, fun key value => ?_, ?_⟩
    · rw [admitObjects, foldlM_cons, hd]
      exact hc'
    · rw [hstore', mem_cons, or_assoc, or_left_comm]
      refine or_congr_right ?_
      by_cases hkey : key = object.1
      · rw [hstore, UnorderedMap.lookup_insert_eq, if_pos hkey, hkey, hlookup, Option.some.injEq]
        constructor
        · rintro rfl
          exact .inl rfl
        · rintro (heq | hnone)
          · rw [← heq]
          · cases hnone
      · rw [hother hkey]
        refine (or_iff_right ?_).symm
        intro heq
        exact hkey (congrArg Prod.fst heq)
    · rw [hkvbytes', map_cons, sum_cons, ← hkvbytes, Nat.add_assoc]

theorem mem_objects_iff {key : Key} {value : Value} :
    (key, value) ∈ c.objects ↔ c.coveredCache.lookup key = some value := by
  rw [← UnorderedMap.mem_entries_iff, objects, mem_map]
  constructor
  · rintro ⟨object, hmem, heq⟩
    cases heq
    exact hmem
  · intro hmem
    exact ⟨⟨key, value⟩, hmem, rfl⟩

theorem nodup_objects (c : LocalCache) : KeyedList.NodupKeys Prod.fst c.objects := by
  rw [KeyedList.NodupKeys, objects, map_map]
  exact c.coveredCache.nodupKeys

/-- The cached objects, in any order, make up the store and its bytes again. -/
theorem exists_readmitted (edge : EdgeContext) (h : Sound c) (hobjects : objects.Perm c.objects) :
    ∃ c', (empty c.capacityBytes c.maxBytesForUncachedObjects
          c.maxBytesForLocalUncachedLru).admitObjects edge objects = some c' ∧
      c'.capacityBytes = c.capacityBytes ∧
      c'.maxBytesForUncachedObjects = c.maxBytesForUncachedObjects ∧
      c'.maxBytesForLocalUncachedLru = c.maxBytesForLocalUncachedLru ∧
      (∀ key, c.coveredCache.lookup key = c'.coveredCache.lookup key) ∧
      c.internalKvbytes = c'.internalKvbytes := by
  obtain ⟨u, w, h⟩ := h
  have hlookup : ∀ {key : Key} {value : Value}, (key, value) ∈ objects ↔
      c.coveredCache.lookup key = some value :=
    hobjects.mem_iff.trans mem_objects_iff
  have hbytes : (objects.map fun object => pairSize object.1 object.2).sum = c.internalKvbytes := by
    rw [(hobjects.map _).sum_eq, h.kvbytes, LocalCache.objects, map_map]
    rfl
  obtain ⟨c', hc', -, hcapacity, huncached, hlru, hstore, hkvbytes⟩ := exists_admitObjects edge
    (sound_empty c.capacityBytes c.maxBytesForUncachedObjects c.maxBytesForLocalUncachedLru)
    ((hobjects.map _).nodup_iff.2 (nodup_objects c)) (fun _ _ => rfl)
    (fun object hobject => ⟨h.fits_of_lookup (hlookup.1 hobject),
      h.valid _ _ (hlookup.1 hobject)⟩)
    (by
      rw [hbytes]
      exact (Nat.zero_add _).trans_lt h.lt)
  refine ⟨c', hc', hcapacity, huncached, hlru, fun key => Option.ext fun value => ?_, ?_⟩
  · rw [hstore, hlookup]
    exact (or_iff_left (Option.some_ne_none value).symm).symm
  · rw [hkvbytes, hbytes]
    exact (Nat.zero_add _).symm

/-! ## What a load restores -/

/-- The records of the cached keys lose nothing that the memory does not have, and every count of
records fits into 32 bits. -/
structure Restorable (uninitialized : Key → Popularity) (c : LocalCache) : Prop where
  records : ∀ pair ∈ c.localCachedMetadata.records.perkeyMetadataList.toList,
    pair.2.p2pRedirectedRewardFreq = 0 ∧
      pair.2.redirectedRewardPopularity = uninitialized pair.1
  cachedKeys : c.localCachedMetadata.records.perkeyMetadataList.toList.length < uint32Limit
  uncachedKeys : c.localUncachedMetadata.records.perkeyMetadataList.toList.length < uint32Limit
  lruKeys : c.localUncachedLru.records.perkeyMetadataList.toList.length < uint32Limit

instance (uninitialized : Key → Popularity) (c : LocalCache) :
    Decidable (Restorable uninitialized c) :=
  decidable_of_iff (_ ∧ _ ∧ _ ∧ _)
    ⟨fun h => ⟨h.1, h.2.1, h.2.2.1, h.2.2.2⟩, fun h => ⟨h.1, h.2, h.3, h.4⟩⟩

variable {uninitialized : Key → Popularity}

/-- The containers come back if the condition holds. -/
theorem Restorable.sameAs (hc : Restorable uninitialized c)
    (h : Sound c) (hcapacity : c'.capacityBytes = c.capacityBytes)
    (huncached : c'.maxBytesForUncachedObjects = c.maxBytesForUncachedObjects)
    (hlru : c'.maxBytesForLocalUncachedLru = c.maxBytesForLocalUncachedLru)
    (hstore : ∀ key, c.coveredCache.lookup key = c'.coveredCache.lookup key)
    (hkvbytes : c.internalKvbytes = c'.internalKvbytes) :
    SameAs c (c'.loadCacheMetadata uninitialized c.dumpCacheMetadata) := by
  obtain ⟨u, w, ⟨v, hv, -⟩, ⟨v', hv', -⟩, ⟨v'', hv'', -⟩, -, -, -, -⟩ := h
  obtain ⟨hrecords, hcount, hcount', hcount''⟩ := hc
  rw [hv.records.list] at hcount hrecords
  rw [hv'.records.list] at hcount'
  rw [hv''.records.list] at hcount''
  refine ⟨hcapacity.symm, huncached.symm, hlru.symm, hstore, hkvbytes, ⟨v, hv, ?_⟩,
    ⟨v', hv', ?_⟩, ⟨v'', hv'', hv''.load_dump hcount''⟩⟩
  · have hload := hv.load_dump dumpKeyLevelMetadata
      (fun key => loadKeyLevelMetadata (uninitialized key)) hcount
      fun _ _ => rfl
    rw [TrackedKeys.mapRecords_eq_self] at hload
    · exact hload
    · intro key t ht
      rw [load_dump_eq_iff]
      exact hrecords (key, t) (LruRecords.record_eq_some_iff.1 ht)
  · have hload := hv'.load_dump HomoKeyLevelMetadata.dumpKeyLevelMetadata
      (fun _ => HomoKeyLevelMetadata.loadKeyLevelMetadata) hcount' fun _ _ => rfl
    rw [TrackedKeys.mapRecords_eq_self] at hload
    · exact hload
    · exact fun _ _ _ => rfl

/-- If everything came back then the condition holds. -/
theorem Restored.restorable (h : Sound c)
    (hrestored : Restored c (c'.loadCacheMetadata uninitialized c.dumpCacheMetadata)) :
    Restorable uninitialized c := by
  obtain ⟨u, w, ⟨v, hv, -⟩, -, -, -, -, -, -⟩ := h
  have hcount := PerkeyRecords.Restored.length_lt dumpKeyLevelMetadata
    (fun key => loadKeyLevelMetadata (uninitialized key))
    hrestored.cached.records
  refine ⟨?_, hcount, ?_, ?_⟩
  · rintro ⟨key, t⟩ hmem
    -- the loaded record is the dumped one without what is not written
    have hload := hv.load_dump dumpKeyLevelMetadata
      (fun key => loadKeyLevelMetadata (uninitialized key))
      (hv.records.list ▸ hcount) fun _ _ => rfl
    have hrecord : v.record key = some t :=
      LruRecords.record_eq_some_iff.2 (hv.records.list ▸ hmem)
    have hloaded := (hload.getkeyLevelMetadata key).trans
      (LruRecords.record_mapRecords (w := v.toLruRecords) hrecord)
    have hsame := hloaded.symm.trans ((hrestored.cached.keyLevelMetadata key).trans
      ((hv.getkeyLevelMetadata key).trans hrecord))
    exact (load_dump_eq_iff t _).1 (Option.some.inj hsame)
  · exact PerkeyRecords.Restored.length_lt HomoKeyLevelMetadata.dumpKeyLevelMetadata
      (fun _ => HomoKeyLevelMetadata.loadKeyLevelMetadata) hrestored.uncached.records
  · exact PerkeyRecords.Restored.length_lt HomoKeyLevelMetadata.dumpKeyLevelMetadata
      (fun _ => HomoKeyLevelMetadata.loadKeyLevelMetadata) hrestored.lru.records

/-- A load of a sound cache does not abort, and it restores the cache iff the condition holds. -/
theorem exists_loaded (edge : EdgeContext) (uninitialized : Key → Popularity) (h : Sound c)
    (hobjects : objects.Perm c.objects) :
    ∃ c', loadCacheSnapshot edge uninitialized
        (empty c.capacityBytes c.maxBytesForUncachedObjects c.maxBytesForLocalUncachedLru) objects
        c.dumpCacheMetadata = some c' ∧
      (Restored c c' ↔ Restorable uninitialized c) := by
  obtain ⟨c', hc', hcapacity, huncached, hlru, hstore, hkvbytes⟩ :=
    exists_readmitted edge h hobjects
  refine ⟨c'.loadCacheMetadata uninitialized c.dumpCacheMetadata, ?_, ?_⟩
  · rw [loadCacheSnapshot, hc']
    rfl
  · constructor
    · exact fun hrestored => hrestored.restorable h
    · intro hrestorable
      exact (hrestorable.sameAs h hcapacity huncached hlru hstore hkvbytes).restored

/-- In a run whose operations meet the condition of the containers, a snapshot of any state reached
can be loaded, and it restores the state iff no cached key has redirected rewards that are lost. -/
theorem restored_iff_of_runs
    {capacityBytes maxBytesForUncachedObjects maxBytesForLocalUncachedLru : Nat}
    {tr : List (LocalCacheOperation × LocalCacheResult)} {c : LocalCache}
    (h : Runs step Meets
      (empty capacityBytes maxBytesForUncachedObjects maxBytesForLocalUncachedLru) tr c)
    (edge : EdgeContext) (uninitialized : Key → Popularity) {objects : List (Key × Value)}
    (hobjects : objects.Perm c.objects) :
    ∃ c', loadCacheSnapshot edge uninitialized
        (empty c.capacityBytes c.maxBytesForUncachedObjects c.maxBytesForLocalUncachedLru) objects
        c.dumpCacheMetadata = some c' ∧
      (Restored c c' ↔ Restorable uninitialized c) :=
  exists_loaded edge uninitialized (sound_of_runs h) hobjects

/-- A cached key with local reads only, beside an uncached one. -/
theorem restored_iff_of_runs_five :
    ∃ tr c c', Runs step Meets (empty 1000 200 100) tr c ∧ tr.length = 5 ∧
      loadCacheSnapshot halfEdge (fun _ => 0) (empty c.capacityBytes c.maxBytesForUncachedObjects
        c.maxBytesForLocalUncachedLru) c.objects c.dumpCacheMetadata = some c' ∧
      Restored c c' := by
  let operations : List LocalCacheOperation := [
    .admitLocalCache halfEdge (byteKey 1) (.ofSize 9) false,
    .updateLocalCache halfEdge (byteKey 2) (.ofSize 99) true false,
    .getLocalCache halfEdge (byteKey 1) false,
    .updateIsNeighborCached (byteKey 1) true,
    .getLocalCache halfEdge (byteKey 2) false]
  have hexec : (exec step Meets (empty 1000 200 100) operations).any
      (fun c => decide (Restorable (fun _ => 0) c)) = true := by decide +kernel
  obtain ⟨tr, c, hrun, htr, hrestorable⟩ := exists_runs_of_any hexec
  have hlength : tr.length = 5 := by
    have hmap := congrArg List.length htr
    rwa [List.length_map] at hmap
  obtain ⟨c', hc', hiff⟩ := restored_iff_of_runs hrun halfEdge (fun _ => 0) (List.Perm.refl _)
  exact ⟨tr, c, c', hrun, hlength, hc', hiff.2 (of_decide_eq_true hrestorable)⟩

/-- An edge of the peer-to-peer mode. -/
def p2pEdge : EdgeContext := { halfEdge with isP2pGlobalMode := true }

/-- The victims that a cache reports after one more read for another edge. -/
def victimsAfterRead (c : LocalCache) (key : Key) : Option LocalCacheAnswer := do
  let (c, _) ← c.request (.inl (.getLocalCacheP2p p2pEdge key 1))
  c.answer (.getLocalSyncedVictimCacheinfos 1)

/-- A read for another edge leaves a redirected reward. It does not come back, whatever the memory
of the new record has; with the right popularity in it the next victims still differ. -/
theorem load_loses_redirected_rewards :
    ∃ tr c, Runs step Meets (empty 1000 200 100) tr c ∧
      ∀ uninitialized, ∃ c', loadCacheSnapshot p2pEdge uninitialized
          (empty c.capacityBytes c.maxBytesForUncachedObjects c.maxBytesForLocalUncachedLru)
          c.objects c.dumpCacheMetadata = some c' ∧ ¬ Restored c c' ∧
        (uninitialized = (fun _ => 1 / 10) →
          c.victimsAfterRead (byteKey 1) ≠ c'.victimsAfterRead (byteKey 1)) := by
  let operations : List LocalCacheOperation := [
    .admitLocalCache p2pEdge (byteKey 1) (.ofSize 9) false,
    .getLocalCacheP2p p2pEdge (byteKey 1) 1]
  let lost (c : LocalCache) : Bool :=
    c.localCachedMetadata.records.perkeyMetadataList.toList.any fun pair =>
      decide (pair.2.p2pRedirectedRewardFreq ≠ 0)
  let differs (c : LocalCache) : Bool :=
    (loadCacheSnapshot p2pEdge (fun _ => 1 / 10)
      (empty c.capacityBytes c.maxBytesForUncachedObjects c.maxBytesForLocalUncachedLru) c.objects
      c.dumpCacheMetadata).all fun c' =>
        decide (c.victimsAfterRead (byteKey 1) ≠ c'.victimsAfterRead (byteKey 1))
  have hexec : (exec step Meets (empty 1000 200 100) operations).any
      (fun c => lost c && differs c) = true := by decide +kernel
  obtain ⟨tr, c, hrun, -, hboth⟩ := exists_runs_of_any hexec
  obtain ⟨hlost, hdiffers⟩ := Bool.and_eq_true_iff.1 hboth
  obtain ⟨pair, hmem, hfreq⟩ := List.any_eq_true.1 hlost
  refine ⟨tr, c, hrun, fun uninitialized => ?_⟩
  obtain ⟨c', hc', hiff⟩ := exists_loaded p2pEdge uninitialized (sound_of_runs hrun)
    (List.Perm.refl _)
  refine ⟨c', hc', fun hrestored => ?_, fun hpopularity => ?_⟩
  · exact of_decide_eq_true hfreq ((hiff.1 hrestored).records pair hmem).1
  · subst hpopularity
    exact of_decide_eq_true (Option.all_eq_true _ _ |>.1 hdiffers c' hc')

end LocalCache

end Covered.Cache
