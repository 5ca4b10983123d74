import Mathlib.Algebra.Order.BigOperators.Group.List
import Covered.Cache.TrackedSizes
import Covered.Lib.Trimming

/-!
# The budgets of the uncached keys

The small LRU cache and the metadata of the uncached keys each have a budget. After a new key the
first drops the keys used last, the second the keys of the least reward, until their bytes are
within it. Each pass may also empty a group, whose bytes count as well, so the bytes are a function
of the records that are left (`recordBytes`) and not a sum over them.

Both loops trim the records in the sense of the library (`Trimmed`), the one in the reverse order of
the LRU list, the other in the order of the rewards. An addition of a new key, in any state that a
run reaches and for any budget, keeps within the budget in this way iff the object has a size and
the bytes can be counted (`addForNewKey_bounded_iff`); the object size is an unsigned 32-bit number,
and the popularity of an object of size zero runs into a left-over assertion.
-/

set_option autoImplicit false

namespace Covered.Cache

open Common Lib Lib.Checked Lib.Execution Lib.SortBy Lib.Simulation List KeyLevelMetadata

/-! ## Bytes of records -/

/-- The bytes of records with their keys and their groups. -/
def recordBytes (bytesPerRecord : Nat) (records : List (Key × HomoKeyLevelMetadata)) : Nat :=
  records.length * bytesPerRecord +
    (records.map fun pair => pair.2.base.groupId).dedup.length * 8 +
    2 * bytesOfKeys (records.map Prod.fst)

/-- The bytes of a record in the small LRU cache: with its place in the lookup table. -/
def lruRecordBytes : Nat := HomoKeyLevelMetadata.getSizeForCapacity + 8

/-- The bytes of a record in the metadata: with its reward and its places in the lookup table. -/
def metadataRecordBytes : Nat := HomoKeyLevelMetadata.getSizeForCapacity + 20

section RecordBytes

variable {bytesPerRecord : Nat} {key : Key} {t : HomoKeyLevelMetadata}

/-- A new record adds its own bytes and those of its group, if that is a new one. -/
theorem recordBytes_cons (records : List (Key × HomoKeyLevelMetadata)) :
    recordBytes bytesPerRecord ((key, t) :: records) =
      recordBytes bytesPerRecord records + bytesPerRecord + 2 * key.getKeyLength +
        if t.base.groupId ∈ records.map (fun pair => pair.2.base.groupId) then 0 else 8 := by
  simp only [recordBytes, length_cons, map_cons, bytesOfKeys_cons, Nat.succ_mul]
  split
  · next hmem =>
    rw [dedup_cons_of_mem hmem]
    omega
  · next hnew =>
    rw [dedup_cons_of_notMem hnew, length_cons]
    omega

theorem lruBytes_eq (w : LruRecords HomoKeyLevelMetadata) :
    w.lruBytes = recordBytes lruRecordBytes w.lru := by
  have hgroups : w.groupCnt = (w.lru.map fun pair => pair.2.base.groupId).dedup.length := rfl
  rw [LruRecords.lruBytes, recordBytes, lruRecordBytes, hgroups, LruRecords.keys, Nat.mul_add]
  omega

theorem metadataBytes_eq (v : TrackedKeys HomoKeyLevelMetadata) :
    v.metadataBytes = recordBytes metadataRecordBytes v.lru := by
  have hgroups : v.groupCnt = (v.lru.map fun pair => pair.2.base.groupId).dedup.length := rfl
  have hsize : sizeForCapacity HomoKeyLevelMetadata =
      HomoKeyLevelMetadata.getSizeForCapacity := rfl
  rw [TrackedKeys.metadataBytes, recordBytes, metadataRecordBytes, hgroups, hsize, LruRecords.keys,
    Nat.mul_add]
  omega

/-- Fewer records have fewer bytes. -/
theorem recordBytes_le {records records' : List (Key × HomoKeyLevelMetadata)}
    (h : records'.Sublist records) :
    recordBytes bytesPerRecord records' ≤ recordBytes bytesPerRecord records := by
  have hlength := Nat.mul_le_mul_right bytesPerRecord h.length_le
  have hgroups : (records'.map fun pair => pair.2.base.groupId).dedup.length ≤
      (records.map fun pair => pair.2.base.groupId).dedup.length := by
    apply List.Subperm.length_le
    apply subperm_of_subset (nodup_dedup _)
    intro groupId hmem
    rw [mem_dedup] at hmem ⊢
    exact (h.map _).subset hmem
  have hkeys : bytesOfKeys (records'.map Prod.fst) ≤ bytesOfKeys (records.map Prod.fst) :=
    ((h.map Prod.fst).map Key.getKeyLength).sum_le_sum fun _ _ => Nat.zero_le _
  rw [recordBytes, recordBytes]
  omega

theorem LruRecords.getSizeForCapacity_spec {w : LruRecords HomoKeyLevelMetadata} {n : Nat}
    (h : w.getSizeForCapacity = some n) :
    n = recordBytes lruRecordBytes w.lru ∧ n < uint64Limit := by
  refine ⟨by rw [← lruBytes_eq, lruBytes_of_getSizeForCapacity h], ?_⟩
  simp only [getSizeForCapacity, bind_eq_some_iff] at h
  obtain ⟨_, -, _, -, _, -, _, -, _, -, h⟩ := h
  exact uint64Add_lt h

theorem TrackedKeys.getSizeForCapacity_spec {v : TrackedKeys HomoKeyLevelMetadata} {n : Nat}
    (h : v.getSizeForCapacity false = some n) :
    n = recordBytes metadataRecordBytes v.lru ∧ n < uint64Limit := by
  refine ⟨by rw [← metadataBytes_eq, metadataBytes_of_getSizeForCapacity h], ?_⟩
  simp only [getSizeForCapacity, Bool.false_eq_true, if_false, bind_eq_some_iff] at h
  obtain ⟨_, -, _, -, _, -, _, -, _, -, _, -, _, -, h⟩ := h
  exact uint64Add_lt h

end RecordBytes

/-! ## The loops -/

/-- The loop of the small LRU cache trims the records from the end of the LRU list. -/
theorem LruRecords.exists_trimmed {w : LruRecords HomoKeyLevelMetadata} (maxBytes : Nat)
    {fuel : Nat} (hroom : w.lruBytes < uint64Limit) (hfuel : w.lru.length < fuel) :
    ∃ w' removed, w.eraseForCapacity maxBytes fuel = some w' ∧
      Trimmed Prod.fst (recordBytes lruRecordBytes) maxBytes w.lru w.keys.reverse removed
        w'.lru := by
  induction fuel generalizing w with
  | zero => exact absurd hfuel (Nat.not_lt_zero _)
  | succ fuel ih =>
    have hpasses := eraseForCapacity_succ maxBytes fuel hroom
    rw [lruBytes_eq] at hpasses
    rcases hpasses with ⟨hwithin, hpass⟩ | ⟨hsize, last, hlast, hlength, hleft, hpass⟩
    · exact ⟨w, [], hpass, .done _ hwithin⟩
    · obtain ⟨w', removed, hw', htrimmed⟩ := ih hleft (by omega)
      -- the order without the last key is that of the remaining keys
      obtain ⟨front, hfront⟩ := getLast?_eq_some_iff.1 hlast
      have horder : w.keys.reverse = last :: (w.removeKey last).keys.reverse := by
        have hnodup : (front ++ [last]).Nodup := hfront ▸ w.nodup
        have hnotin : last ∉ front := by
          rw [nodup_append] at hnodup
          intro hmem
          exact hnodup.2.2 last hmem last mem_cons_self rfl
        have hkeys : (w.removeKey last).keys = front := by
          rw [keys_removeKey, hfront, filter_append, filter_eq_self.2]
          · simp
          · intro k hk
            exact decide_eq_true fun heq => hnotin (heq ▸ hk)
        rw [hkeys, hfront, reverse_append, reverse_singleton, singleton_append]
      have hlru : (w.removeKey last).lru =
          w.lru.filter fun pair => decide (pair.1 ≠ last) := KeyedList.erase_eq_filter w.nodup
      rw [hlru] at htrimmed
      refine ⟨w', last :: removed, hpass.trans hw', ?_⟩
      rw [horder]
      exact htrimmed.pass hsize

/-- The loop of the metadata trims the records in the order of their rewards. -/
theorem TrackedKeys.exists_trimmed {v : TrackedKeys HomoKeyLevelMetadata} (maxBytes : Nat)
    {fuel : Nat} (hroom : v.metadataBytes < uint64Limit) (hfuel : v.lru.length < fuel) :
    ∃ v' removed, v.detrackForCapacity maxBytes fuel = some v' ∧
      Trimmed Prod.fst (recordBytes metadataRecordBytes) maxBytes v.lru (v.rewards.map Prod.snd)
        removed v'.lru ∧
      v'.rewards = v.rewards.drop removed.length := by
  induction fuel generalizing v with
  | zero => exact absurd hfuel (Nat.not_lt_zero _)
  | succ fuel ih =>
    have hpasses := detrackForCapacity_succ maxBytes fuel hroom
    rw [metadataBytes_eq] at hpasses
    rcases hpasses with ⟨hwithin, hpass⟩ | ⟨hsize, least, others, hrewards, hlength, hleft, hpass⟩
    · exact ⟨v, [], hpass, .done _ hwithin, rfl⟩
    · obtain ⟨v', removed, hv', htrimmed, hrest⟩ := ih hleft (by omega)
      have hothers : (v.removeKey least.2).rewards = others := by
        show KeyedList.erase Prod.snd least.2 v.rewards = others
        rw [hrewards]
        exact eraseP_cons_of_pos (decide_eq_true rfl)
      have hlru : (v.removeKey least.2).lru =
          v.lru.filter fun pair => decide (pair.1 ≠ least.2) :=
        KeyedList.erase_eq_filter v.nodup
      rw [hlru, hothers] at htrimmed
      rw [hothers] at hrest
      refine ⟨v', least.2 :: removed, hpass.trans hv', ?_, ?_⟩
      · rw [hrewards]
        exact htrimmed.pass hsize
      · rw [hrest, hrewards, length_cons, drop_succ_cons]

/-! ## New keys -/

/-- The bytes that a new key adds: its record, its places and the key itself, and a group if none
has the number that is assigned next. -/
def PerkeyRecords.addedBytes (bytesPerRecord : Nat) (c : PerkeyRecords HomoKeyLevelMetadata)
    (key : Key) : Nat :=
  bytesPerRecord + 2 * key.getKeyLength +
    if (c.pergroupMetadataMap.lookup (assignGroup c.curGroupId c.curGroupKeycnt).1).isSome = true
    then 0 else 8

/-- A byte count with more bytes is below the limit of an unsigned 64-bit number. -/
def CanCount (size : Option Nat) (added : Nat) : Prop :=
  ∃ n, size = some n ∧ n + added < uint64Limit

section NewKeys

variable {bytesPerRecord : Nat} {key : Key} {t : HomoKeyLevelMetadata} {edge : EdgeContext}
  {groupId : Nat} {value : Value} {isGlobalCached isNeighborCached : Bool}
  {added addedRedirected : Nat}

theorem PerkeyRecords.Represents.recordBytes_cons {c : PerkeyRecords HomoKeyLevelMetadata}
    {w : LruRecords HomoKeyLevelMetadata} (h : c.Represents w)
    (hgroup : t.base.groupId = (assignGroup c.curGroupId c.curGroupKeycnt).1) :
    recordBytes bytesPerRecord ((key, t) :: w.lru) =
      recordBytes bytesPerRecord w.lru + c.addedBytes bytesPerRecord key := by
  have hstored : (c.pergroupMetadataMap.lookup
      (assignGroup c.curGroupId c.curGroupKeycnt).1).isSome = true ↔
        t.base.groupId ∈ w.lru.map fun pair => pair.2.base.groupId := by
    rw [h.group, LruRecords.isSome_group_iff, ← hgroup]
    exact Iff.rfl
  rw [Covered.Cache.recordBytes_cons, addedBytes]
  simp only [hstored]
  omega

/-- A new key has a record iff its object has a size. -/
theorem LruRecords.exists_newRecord_iff :
    (∃ t : HomoKeyLevelMetadata, newRecord edge groupId key value isGlobalCached isNeighborCached
      added addedRedirected = some t) ↔ objectSize key value ≠ 0 := by
  constructor
  · rintro ⟨t, ht⟩
    simp only [newRecord, bind_eq_some_iff] at ht
    obtain ⟨created, -, sized, hsized, hpop⟩ := ht
    have hsize : sized.base.objectSize = objectSize key value :=
      (value_spec hsized).2
    obtain ⟨base, hbase, -⟩ := bind_eq_some_iff.1
      (show HomoKeyLevelMetadata.calculateAndUpdatePopularity edge sized = some t from hpop)
    obtain ⟨popularity, hpopularity, -⟩ := bind_eq_some_iff.1 hbase
    rw [← hsize]
    exact (require_bind_iff.1 hpopularity).1
  · exact LruRecords.exists_newRecord isNeighborCached edge groupId fun m => ⟨_, rfl⟩

/-- The small LRU cache takes a new key iff it has a record and its bytes can be counted. -/
theorem LruRecords.addKey_eq_some_iff {w w₁ : LruRecords HomoKeyLevelMetadata} {reward : Reward} :
    w.addKey edge key value isGlobalCached = some (w₁, reward) ↔
      ∃ (hnew : key ∉ w.keys) (hbytes : bytesOfKeys w.keys + key.getKeyLength < uint64Limit)
        (t : HomoKeyLevelMetadata),
        newRecord edge (assignGroup w.curGroupId w.curGroupKeycnt).1 key value isGlobalCached false
          1 1 = some t ∧
        w.insertKey key t hnew hbytes = w₁ ∧ calculateReward edge t = reward := by
  rw [addKey]
  split
  · next h =>
    simp only [bind_eq_some_iff, pure_eq_some_iff, Prod.mk.injEq]
    constructor
    · rintro ⟨t, ht, hw₁, hreward⟩
      exact ⟨h.1, h.2, t, ht, hw₁, hreward⟩
    · rintro ⟨hnew, hbytes, t, ht, hw₁, hreward⟩
      exact ⟨t, ht, hw₁, hreward⟩
  · next h =>
    refine iff_of_false (fun hnone => ?_) ?_
    · cases hnone
    · rintro ⟨hnew, hbytes, -⟩
      exact h ⟨hnew, hbytes⟩

/-- The metadata take a new key iff it has a record and its bytes can be counted. -/
theorem TrackedKeys.addKey_eq_some_iff {v v₁ : TrackedKeys HomoKeyLevelMetadata} :
    v.addKey edge key value isGlobalCached isNeighborCached added addedRedirected = some v₁ ↔
      ∃ (hnew : key ∉ v.keys) (hbytes : bytesOfKeys v.keys + key.getKeyLength < uint64Limit)
        (t : HomoKeyLevelMetadata),
        LruRecords.newRecord edge (assignGroup v.curGroupId v.curGroupKeycnt).1 key value
          isGlobalCached isNeighborCached added addedRedirected = some t ∧
        v.insertKey key t (calculateReward edge t) hnew hbytes = v₁ := by
  rw [addKey]
  split
  · next h =>
    simp only [bind_eq_some_iff, pure_eq_some_iff]
    constructor
    · rintro ⟨t, ht, hv₁⟩
      exact ⟨h.1, h.2, t, ht, hv₁⟩
    · rintro ⟨hnew, hbytes, t, ht, hv₁⟩
      exact ⟨t, ht, hv₁⟩
  · next h =>
    refine iff_of_false (fun hnone => ?_) ?_
    · cases hnone
    · rintro ⟨hnew, hbytes, -⟩
      exact h ⟨hnew, hbytes⟩

end NewKeys

/-! ## Additions within the budget -/

/-- What the containers of uncached keys show: their records in LRU order, the keys they track, the
records of these and their bytes. -/
structure Tracking where
  records : List (Key × HomoKeyLevelMetadata)
  isKeyExist : Key → Bool
  getkeyLevelMetadata : Key → Option HomoKeyLevelMetadata
  size : Option Nat

def LocalUncachedLru.tracking (s : LocalUncachedLru) : Tracking :=
  ⟨s.records.perkeyMetadataList.toList, s.isKeyExist, s.getkeyLevelMetadata, s.getSizeForCapacity⟩

def CacheMetadataBase.tracking (s : CacheMetadataBase HomoKeyLevelMetadata) : Tracking :=
  ⟨s.records.perkeyMetadataList.toList, s.isKeyExist, s.getkeyLevelMetadata,
    s.getSizeForCapacity false⟩

/-- A key with its record is added in front, then the records are trimmed in the given order. -/
structure AddedWithin (bytesPerRecord maxBytes : Nat) (before after : Tracking) (key : Key)
    (record : HomoKeyLevelMetadata) (order removed : List Key) : Prop where
  trimmed : Trimmed Prod.fst (recordBytes bytesPerRecord) maxBytes ((key, record) :: before.records)
    order removed after.records
  size_eq : after.size = some (recordBytes bytesPerRecord after.records)
  tracked : ∀ k, after.isKeyExist k = true ↔ k ∈ after.records.map Prod.fst
  same : ∀ k, k ≠ key → after.isKeyExist k = true →
    after.getkeyLevelMetadata k = before.getkeyLevelMetadata k

/-- A tracking stands for records. -/
structure Tracking.Shows (bytesPerRecord : Nat) (view : Tracking)
    (w : LruRecords HomoKeyLevelMetadata) : Prop where
  records : view.records = w.lru
  exists_iff : ∀ k, view.isKeyExist k = true ↔ k ∈ w.keys
  metadata : ∀ k, view.getkeyLevelMetadata k = w.record k
  size : recordBytes bytesPerRecord w.lru < uint64Limit →
    view.size = some (recordBytes bytesPerRecord w.lru)
  size_lt : ∀ n, view.size = some n → n = recordBytes bytesPerRecord w.lru ∧ n < uint64Limit

section AddedWithin

variable {bytesPerRecord maxBytes : Nat} {key : Key} {t : HomoKeyLevelMetadata}
  {w w' : LruRecords HomoKeyLevelMetadata} {order removed : List Key}

theorem LocalUncachedLru.Represents.shows {s : LocalUncachedLru} (h : s.Represents w) :
    s.tracking.Shows lruRecordBytes w where
  records := h.records.list
  exists_iff := h.exists_iff
  metadata := h.getkeyLevelMetadata
  size hroom := by
    rw [← lruBytes_eq] at hroom ⊢
    exact h.getSizeForCapacity.trans (LruRecords.getSizeForCapacity_eq hroom)
  size_lt n hn := LruRecords.getSizeForCapacity_spec (h.getSizeForCapacity ▸ hn)

theorem Represents.shows {s : CacheMetadataBase HomoKeyLevelMetadata}
    {v : TrackedKeys HomoKeyLevelMetadata} (h : Represents s v) :
    s.tracking.Shows metadataRecordBytes v.toLruRecords where
  records := h.records.list
  exists_iff := h.exists_iff
  metadata := h.getkeyLevelMetadata
  size hroom := by
    rw [← metadataBytes_eq] at hroom ⊢
    exact (h.getSizeForCapacity false).trans (TrackedKeys.getSizeForCapacity_eq hroom)
  size_lt n hn := TrackedKeys.getSizeForCapacity_spec (h.getSizeForCapacity false ▸ hn)

/-- Records that are trimmed after an addition show it. -/
theorem Tracking.Shows.addedWithin {before after : Tracking}
    (hbefore : before.Shows bytesPerRecord w) (hafter : after.Shows bytesPerRecord w')
    (hroom : recordBytes bytesPerRecord w'.lru < uint64Limit)
    (h : Trimmed Prod.fst (recordBytes bytesPerRecord) maxBytes ((key, t) :: w.lru) order removed
      w'.lru) :
    AddedWithin bytesPerRecord maxBytes before after key t order removed where
  trimmed := by
    rw [hbefore.records, hafter.records]
    exact h
  size_eq := by
    rw [hafter.records]
    exact hafter.size hroom
  tracked k := by
    rw [hafter.records]
    exact hafter.exists_iff k
  same k hk hexists := by
    -- a record that is kept was there before, unless it is the new one
    obtain ⟨u, hu⟩ := LruRecords.exists_record ((hafter.exists_iff k).1 hexists)
    have hmem := ((h.mem_iff (k, u)).1 (LruRecords.record_eq_some_iff.1 hu)).1
    have hold : (k, u) ∈ w.lru := by
      rcases mem_cons.1 hmem with heq | hold
      · exact absurd (congrArg Prod.fst heq) hk
      · exact hold
    rw [hafter.metadata, hbefore.metadata, hu, LruRecords.record_eq_some_iff.2 hold]

end AddedWithin

/-- The small LRU cache takes a new key within its budget: the keys used last are dropped. -/
def LocalUncachedLru.AddsWithinBudget (maxBytes : Nat) (edge : EdgeContext) (s : LocalUncachedLru)
    (key : Key) (value : Value) (isGlobalCached : Bool) : Prop :=
  ∃ s' record removed,
    s.addForNewKey maxBytes edge key value isGlobalCached =
      some (s', KeyLevelMetadata.calculateReward edge record) ∧
    LruRecords.newRecord edge (assignGroup s.records.curGroupId s.records.curGroupKeycnt).1 key
      value isGlobalCached false 1 1 = some record ∧
    AddedWithin lruRecordBytes maxBytes s.tracking s'.tracking key record
      (key :: s.tracking.records.map Prod.fst).reverse removed

/-- The keys of the metadata by reward, with a new one. -/
def CacheMetadataBase.rewardsWithNew (s : CacheMetadataBase HomoKeyLevelMetadata)
    (reward : Reward) (key : Key) : List (Reward × Key) :=
  s.sortedRewardMultimap.toList.orderedInsert (fun a b => a.1 < b.1) (reward, key)

/-- The metadata take a new key within their budget: the keys of the least reward are dropped. -/
def CacheMetadataBase.AddsWithinBudget (maxBytes : Nat) (edge : EdgeContext)
    (s : CacheMetadataBase HomoKeyLevelMetadata) (key : Key) (value : Value)
    (isGlobalCached isNeighborCached : Bool) (added addedRedirected : Nat) : Prop :=
  ∃ s' record removed,
    s.addForNewKey (some maxBytes) edge key value isGlobalCached isNeighborCached added
      addedRedirected = some s' ∧
    LruRecords.newRecord edge (assignGroup s.records.curGroupId s.records.curGroupKeycnt).1 key
      value isGlobalCached isNeighborCached added addedRedirected = some record ∧
    AddedWithin metadataRecordBytes maxBytes s.tracking s'.tracking key record
      ((s.rewardsWithNew (KeyLevelMetadata.calculateReward edge record) key).map Prod.snd) removed ∧
    Ascending Prod.fst (s.rewardsWithNew (KeyLevelMetadata.calculateReward edge record) key) ∧
    s'.sortedRewardMultimap.toList =
      (s.rewardsWithNew (KeyLevelMetadata.calculateReward edge record) key).drop removed.length

section Budget

variable {maxBytes bytesPerRecord : Nat} {edge : EdgeContext} {key : Key} {value : Value}
  {isGlobalCached isNeighborCached : Bool} {added addedRedirected : Nat}

variable {w : LruRecords HomoKeyLevelMetadata}

/-- Bytes that can be counted with a new key leave room for the key in every count. -/
theorem PerkeyRecords.Represents.room {c : PerkeyRecords HomoKeyLevelMetadata}
    {t : HomoKeyLevelMetadata} (h : c.Represents w)
    (hrecord : LruRecords.newRecord edge (assignGroup c.curGroupId c.curGroupKeycnt).1 key value
      isGlobalCached isNeighborCached added addedRedirected = some t)
    (hroom : recordBytes bytesPerRecord w.lru + c.addedBytes bytesPerRecord key < uint64Limit) :
    bytesOfKeys w.keys + key.getKeyLength < uint64Limit ∧
      recordBytes bytesPerRecord ((key, t) :: w.lru) < uint64Limit := by
  constructor
  · rw [recordBytes, addedBytes] at hroom
    rw [LruRecords.keys]
    omega
  · rw [h.recordBytes_cons (LruRecords.newRecord_spec hrecord).1]
    exact hroom

theorem LocalUncachedLru.Represents.addsWithinBudget_iff {s : LocalUncachedLru}
    (h : s.Represents w) (hnew : s.isKeyExist key = false) :
    s.AddsWithinBudget maxBytes edge key value isGlobalCached ↔
      objectSize key value ≠ 0 ∧
        CanCount s.getSizeForCapacity (s.records.addedBytes lruRecordBytes key) := by
  have hnotin : key ∉ w.keys := by
    rw [← h.exists_iff, hnew]
    exact Bool.false_ne_true
  have hadd := h.addForNewKey maxBytes edge key value isGlobalCached
  constructor
  · rintro ⟨s', record, removed, hs', hrecord, -⟩
    refine ⟨LruRecords.exists_newRecord_iff.1 ⟨record, hrecord⟩, ?_⟩
    obtain ⟨⟨w', reward⟩, hw', -⟩ := exists_of_rel hadd hs'
    simp only [LruRecords.addForNewKey, bind_eq_some_iff] at hw'
    obtain ⟨⟨w₁, reward₁⟩, hw₁, w₂, herase, -⟩ := hw'
    obtain ⟨hnew₁, hbytes, t, ht, rfl, -⟩ := LruRecords.addKey_eq_some_iff.1 hw₁
    -- the first pass of the loop counts the bytes with the new key
    rw [LruRecords.eraseForCapacity, Option.bind_eq_bind] at herase
    obtain ⟨n, hn, -⟩ := bind_eq_some_iff.1 herase
    obtain ⟨rfl, hlt⟩ := LruRecords.getSizeForCapacity_spec hn
    rw [← h.records.groupId, ← h.records.groupKeycnt] at ht
    have hsum : recordBytes lruRecordBytes ((key, t) :: w.lru) =
        recordBytes lruRecordBytes w.lru + s.records.addedBytes lruRecordBytes key :=
      h.records.recordBytes_cons (LruRecords.newRecord_spec ht).1
    have hroom : recordBytes lruRecordBytes w.lru + s.records.addedBytes lruRecordBytes key <
        uint64Limit := hsum ▸ hlt
    exact ⟨_, h.shows.size (Nat.lt_of_le_of_lt (Nat.le_add_right _ _) hroom), hroom⟩
  · rintro ⟨hsize, n, hn, hroom⟩
    obtain ⟨rfl, -⟩ := h.shows.size_lt n hn
    obtain ⟨t, ht⟩ := LruRecords.exists_newRecord_iff.2 hsize
    obtain ⟨hbytes, hcons⟩ := h.records.room ht hroom
    have hw₁ : w.addKey edge key value isGlobalCached =
        some (w.insertKey key t hnotin hbytes, calculateReward edge t) := by
      apply LruRecords.addKey_eq_some_iff.2
      rw [← h.records.groupId, ← h.records.groupKeycnt]
      exact ⟨hnotin, hbytes, t, ht, rfl, rfl⟩
    obtain ⟨w', removed, hw', htrimmed⟩ := LruRecords.exists_trimmed
      (w := w.insertKey key t hnotin hbytes) maxBytes (by rw [lruBytes_eq]; exact hcons)
      (Nat.lt_succ_self _)
    have hadded : w.addForNewKey maxBytes edge key value isGlobalCached =
        some (w', calculateReward edge t) := by
      rw [LruRecords.addForNewKey, hw₁]
      simp only [some_bind, hw', Option.pure_def]
    obtain ⟨⟨s', reward⟩, hs', hrep, rfl⟩ := exists_of_rel_right hadd hadded
    have hkept : recordBytes lruRecordBytes w'.lru < uint64Limit := by
      rw [htrimmed.kept_eq]
      exact Nat.lt_of_le_of_lt (recordBytes_le filter_sublist) hcons
    refine ⟨s', t, removed, hs', ht, h.shows.addedWithin hrep.shows hkept ?_⟩
    have hrecords : s.tracking.records = w.lru := h.records.list
    rw [hrecords]
    exact htrimmed

theorem Represents.addsWithinBudget_iff {s : CacheMetadataBase HomoKeyLevelMetadata}
    {v : TrackedKeys HomoKeyLevelMetadata} (h : Represents s v) (hnew : s.isKeyExist key = false) :
    s.AddsWithinBudget maxBytes edge key value isGlobalCached isNeighborCached added
        addedRedirected ↔
      objectSize key value ≠ 0 ∧
        CanCount (s.getSizeForCapacity false) (s.records.addedBytes metadataRecordBytes key) := by
  have hnotin : key ∉ v.keys := by
    rw [← h.exists_iff, hnew]
    exact Bool.false_ne_true
  have hadd := h.addForNewKey (some maxBytes) edge key value isGlobalCached isNeighborCached added
    addedRedirected
  constructor
  · rintro ⟨s', record, removed, hs', hrecord, -⟩
    refine ⟨LruRecords.exists_newRecord_iff.1 ⟨record, hrecord⟩, ?_⟩
    obtain ⟨v', hv', -⟩ := exists_of_rel hadd hs'
    simp only [TrackedKeys.addForNewKey, bind_eq_some_iff] at hv'
    obtain ⟨v₁, hv₁, hdetrack⟩ := hv'
    obtain ⟨hnew₁, hbytes, t, ht, rfl⟩ := TrackedKeys.addKey_eq_some_iff.1 hv₁
    -- the first pass of the loop counts the bytes with the new key
    rw [TrackedKeys.afterAddForNewKey, TrackedKeys.detrackForCapacity,
      Option.bind_eq_bind] at hdetrack
    obtain ⟨n, hn, -⟩ := bind_eq_some_iff.1 hdetrack
    obtain ⟨rfl, hlt⟩ := TrackedKeys.getSizeForCapacity_spec hn
    rw [← h.records.groupId, ← h.records.groupKeycnt] at ht
    have hsum : recordBytes metadataRecordBytes ((key, t) :: v.lru) =
        recordBytes metadataRecordBytes v.lru + s.records.addedBytes metadataRecordBytes key :=
      h.records.recordBytes_cons (LruRecords.newRecord_spec ht).1
    have hroom : recordBytes metadataRecordBytes v.lru +
        s.records.addedBytes metadataRecordBytes key < uint64Limit := hsum ▸ hlt
    exact ⟨_, h.shows.size (Nat.lt_of_le_of_lt (Nat.le_add_right _ _) hroom), hroom⟩
  · rintro ⟨hsize, n, hn, hroom⟩
    obtain ⟨rfl, -⟩ := h.shows.size_lt n hn
    obtain ⟨t, ht⟩ := LruRecords.exists_newRecord_iff.2 hsize
    obtain ⟨hbytes, hcons⟩ := h.records.room ht hroom
    have hv₁ : v.addKey edge key value isGlobalCached isNeighborCached added addedRedirected =
        some (v.insertKey key t (calculateReward edge t) hnotin hbytes) := by
      apply TrackedKeys.addKey_eq_some_iff.2
      rw [← h.records.groupId, ← h.records.groupKeycnt]
      exact ⟨hnotin, hbytes, t, ht, rfl⟩
    obtain ⟨v', removed, hv', htrimmed, hrewards⟩ := TrackedKeys.exists_trimmed
      (v := v.insertKey key t (calculateReward edge t) hnotin hbytes) maxBytes
      (by rw [metadataBytes_eq]; exact hcons) (Nat.lt_succ_self _)
    have hadded : v.addForNewKey (some maxBytes) edge key value isGlobalCached isNeighborCached
        added addedRedirected = some v' := by
      rw [TrackedKeys.addForNewKey, hv₁]
      exact hv'
    obtain ⟨s', hs', hrep⟩ := exists_of_rel_right hadd hadded
    have hkept : recordBytes metadataRecordBytes v'.lru < uint64Limit := by
      rw [htrimmed.kept_eq]
      exact Nat.lt_of_le_of_lt (recordBytes_le filter_sublist) hcons
    have hnewRewards : s.rewardsWithNew (calculateReward edge t) key =
        (v.insertKey key t (calculateReward edge t) hnotin hbytes).rewards := by
      rw [CacheMetadataBase.rewardsWithNew, h.multimap]
      rfl
    refine ⟨s', t, removed, hs', ht, ?_, ?_, ?_⟩
    · rw [hnewRewards]
      exact h.shows.addedWithin hrep.shows hkept htrimmed
    · rw [hnewRewards]
      exact TrackedKeys.ascending _
    · rw [hnewRewards, hrep.multimap, hrewards]

end Budget

/-! ## Runs -/

/-- The operations on the small LRU cache, with the edge on which they run. -/
inductive UncachedLruOperation where
  | addForNewKey (edge : EdgeContext) (key : Key) (value : Value) (isGlobalCached : Bool)
  | updateNoValueStatsForExistingKey (edge : EdgeContext) (key : Key) (isGlobalCached : Bool)
  | updateValueStatsForExistingKey (edge : EdgeContext) (key : Key) (value originalValue : Value)
  | updateIsGlobalCachedForExistingKey (edge : EdgeContext) (key : Key)
      (isGetrsp isGlobalCached : Bool)
  | removeForExistingKey (key : Key)

/-- The small LRU cache as a machine; its results are left out. -/
def LocalUncachedLru.step (maxBytes : Nat) (s : LocalUncachedLru) (o : UncachedLruOperation) :
    Option (LocalUncachedLru × Unit) :=
  match o with
  | .addForNewKey edge key value isGlobalCached =>
      (s.addForNewKey maxBytes edge key value isGlobalCached).map fun r => (r.1, ())
  | .updateNoValueStatsForExistingKey edge key isGlobalCached =>
      (s.updateNoValueStatsForExistingKey edge key isGlobalCached).map fun r => (r.1, ())
  | .updateValueStatsForExistingKey edge key value originalValue =>
      (s.updateValueStatsForExistingKey edge key value originalValue).map fun r => (r.1, ())
  | .updateIsGlobalCachedForExistingKey edge key isGetrsp isGlobalCached =>
      (s.updateIsGlobalCachedForExistingKey edge key isGetrsp isGlobalCached).map
        fun r => (r.1, ())
  | .removeForExistingKey key => (s.removeForExistingKey key).map fun r => (r.1, ())

/-- The operations on the metadata of the uncached keys: those of any container of records, and the
change of the flag for copies. -/
inductive UncachedMetadataOperation where
  | base (o : MetadataOperation)
  | updateIsGlobalCachedForExistingKey (edge : EdgeContext) (key : Key)
      (isGetrsp isGlobalCached : Bool)

/-- The metadata of the uncached keys as a machine. -/
def CacheMetadataBase.uncachedStep (maxBytes : Nat) (s : CacheMetadataBase HomoKeyLevelMetadata)
    (o : UncachedMetadataOperation) : Option (CacheMetadataBase HomoKeyLevelMetadata × Unit) :=
  match o with
  | .base o => s.step (some maxBytes) o
  | .updateIsGlobalCachedForExistingKey edge key isGetrsp isGlobalCached =>
      (s.updateIsGlobalCachedForExistingKey edge key isGetrsp isGlobalCached).map (·, ())

section Runs

variable {maxBytes : Nat}

/-- One operation of the small LRU cache is one on the records that it stands for. -/
theorem LocalUncachedLru.exists_represents_of_step {s s' : LocalUncachedLru}
    {o : UncachedLruOperation} {out : Unit} (h : ∃ w, s.Represents w)
    (hstep : s.step maxBytes o = some (s', out)) : ∃ w, s'.Represents w := by
  obtain ⟨w, h⟩ := h
  cases o with
  | addForNewKey edge key value isGlobalCached =>
    obtain ⟨r, hr, heq⟩ := Option.map_eq_some_iff.1 hstep
    cases heq
    obtain ⟨r', -, h', -⟩ :=
      exists_of_rel (h.addForNewKey maxBytes edge key value isGlobalCached) hr
    exact ⟨r'.1, h'⟩
  | updateNoValueStatsForExistingKey edge key isGlobalCached =>
    obtain ⟨r, hr, heq⟩ := Option.map_eq_some_iff.1 hstep
    cases heq
    obtain ⟨r', -, h', -⟩ := exists_of_rel (h.updateNoValueStats edge key isGlobalCached) hr
    exact ⟨r'.1, h'⟩
  | updateValueStatsForExistingKey edge key value originalValue =>
    obtain ⟨r, hr, heq⟩ := Option.map_eq_some_iff.1 hstep
    cases heq
    obtain ⟨r', -, h', -⟩ := exists_of_rel (h.updateValueStats edge key value originalValue) hr
    exact ⟨r'.1, h'⟩
  | updateIsGlobalCachedForExistingKey edge key isGetrsp isGlobalCached =>
    obtain ⟨r, hr, heq⟩ := Option.map_eq_some_iff.1 hstep
    cases heq
    obtain ⟨r', -, h', -⟩ :=
      exists_of_rel (h.updateIsGlobalCached edge key isGetrsp isGlobalCached) hr
    exact ⟨r'.1, h'⟩
  | removeForExistingKey key =>
    obtain ⟨r, hr, heq⟩ := Option.map_eq_some_iff.1 hstep
    cases heq
    obtain ⟨r', -, h', -⟩ := exists_of_rel (h.removeForExistingKey key) hr
    exact ⟨r'.1, h'⟩

/-- One operation on the metadata is one on the tracked keys that they stand for. -/
theorem CacheMetadataBase.exists_represents_of_uncachedStep
    {s s' : CacheMetadataBase HomoKeyLevelMetadata} {o : UncachedMetadataOperation} {out : Unit}
    (h : ∃ v, Represents s v) (hstep : s.uncachedStep maxBytes o = some (s', out)) :
    ∃ v, Represents s' v := by
  obtain ⟨v, h⟩ := h
  cases o with
  | base o =>
    obtain ⟨r', -, h', -⟩ := exists_of_rel (h.step_simulated (some maxBytes) o) hstep
    exact ⟨r'.1, h'⟩
  | updateIsGlobalCachedForExistingKey edge key isGetrsp isGlobalCached =>
    obtain ⟨r, hr, heq⟩ := Option.map_eq_some_iff.1 hstep
    cases heq
    obtain ⟨v', -, h'⟩ :=
      exists_of_rel (h.updateIsGlobalCached edge key isGetrsp isGlobalCached) hr
    exact ⟨v', h'⟩

end Runs

/-- In every state that a run of the small LRU cache or of the metadata of uncached keys reaches,
for every budget and every key that is not tracked: the addition ends within the budget without an
abort, has dropped the shortest sufficient part of the keys used last or of the least reward, and
has left the other records as they were, iff the object has a size (as an unsigned 32-bit number)
and the bytes with the new key can be counted. -/
theorem addForNewKey_bounded_iff {maxBytes maxBytes' : Nat}
    {tr : List (UncachedLruOperation × Unit)} {s : LocalUncachedLru}
    {tr' : List (UncachedMetadataOperation × Unit)} {s' : CacheMetadataBase HomoKeyLevelMetadata}
    (h : Runs (LocalUncachedLru.step maxBytes) anyAction .empty tr s)
    (h' : Runs (CacheMetadataBase.uncachedStep maxBytes') anyAction .empty tr' s')
    {key : Key} (hnew : s.isKeyExist key = false) (hnew' : s'.isKeyExist key = false)
    (edge : EdgeContext) (value : Value) (isGlobalCached isNeighborCached : Bool)
    (added addedRedirected : Nat) :
    (s.AddsWithinBudget maxBytes edge key value isGlobalCached ↔
      objectSize key value ≠ 0 ∧
        CanCount s.getSizeForCapacity (s.records.addedBytes lruRecordBytes key)) ∧
    (s'.AddsWithinBudget maxBytes' edge key value isGlobalCached isNeighborCached added
        addedRedirected ↔
      objectSize key value ≠ 0 ∧
        CanCount (s'.getSizeForCapacity false)
          (s'.records.addedBytes metadataRecordBytes key)) := by
  obtain ⟨w, hw⟩ : ∃ w, s.Represents w :=
    h.invariant (P := fun s => ∃ w, LocalUncachedLru.Represents s w)
      ⟨_, LocalUncachedLru.Represents.empty⟩
      fun hs _ hstep => LocalUncachedLru.exists_represents_of_step hs hstep
  obtain ⟨v, hv⟩ : ∃ v, Represents s' v :=
    h'.invariant (P := fun s => ∃ v, Represents s v) ⟨_, Represents.empty⟩
      fun hs _ hstep => CacheMetadataBase.exists_represents_of_uncachedStep hs hstep
  exact ⟨hw.addsWithinBudget_iff hnew, hv.addsWithinBudget_iff hnew'⟩

theorem canCount_of_any {size : Option Nat} {added : Nat}
    (h : size.any (fun n => decide (n + added < uint64Limit)) = true) : CanCount size added := by
  obtain ⟨n, hn, hlt⟩ := (Option.any_eq_true _ _).1 h
  exact ⟨n, hn, of_decide_eq_true hlt⟩

/-- Budgets for one key of one byte: the second key takes the place of the first one. -/
theorem addForNewKey_bounded_iff_second :
    ∃ tr s tr' s', Runs (LocalUncachedLru.step 40) anyAction .empty tr s ∧
      Runs (CacheMetadataBase.uncachedStep 50) anyAction .empty tr' s' ∧
      s.isKeyExist ⟨[1]⟩ = true ∧ s'.isKeyExist ⟨[1]⟩ = true ∧
      s.AddsWithinBudget 40 { weights := ⟨1, 1 / 2⟩ } ⟨[2]⟩ (.ofSize 9) false ∧
      s'.AddsWithinBudget 50 { weights := ⟨1, 1 / 2⟩ } ⟨[2]⟩ (.ofSize 9) false false 1 1 := by
  have hlru : (exec (LocalUncachedLru.step 40) anyAction .empty
      [.addForNewKey { weights := ⟨1, 1 / 2⟩ } ⟨[1]⟩ (.ofSize 9) false]).any
      (fun s => s.isKeyExist ⟨[1]⟩ && !s.isKeyExist ⟨[2]⟩ &&
        s.getSizeForCapacity.any fun n =>
          decide (n + s.records.addedBytes lruRecordBytes ⟨[2]⟩ < uint64Limit)) = true := by
    decide +kernel
  have hmetadata : (exec (CacheMetadataBase.uncachedStep 50) anyAction .empty
      [.base (.addForNewKey { weights := ⟨1, 1 / 2⟩ } ⟨[1]⟩ (.ofSize 9) false false 1 1)]).any
      (fun s => s.isKeyExist ⟨[1]⟩ && !s.isKeyExist ⟨[2]⟩ &&
        (s.getSizeForCapacity false).any fun n =>
          decide (n + s.records.addedBytes metadataRecordBytes ⟨[2]⟩ < uint64Limit)) = true := by
    decide +kernel
  obtain ⟨tr, s, hrun, -, hs⟩ := exists_runs_of_any hlru
  obtain ⟨tr', s', hrun', -, hs'⟩ := exists_runs_of_any hmetadata
  simp only [Bool.and_eq_true, Bool.not_eq_true'] at hs hs'
  have hboth := addForNewKey_bounded_iff hrun hrun' hs.1.2 hs'.1.2 { weights := ⟨1, 1 / 2⟩ }
    (.ofSize 9) false false 1 1
  have hsize : objectSize ⟨[2]⟩ (.ofSize 9) ≠ 0 := by decide
  exact ⟨tr, s, tr', s', hrun, hrun', hs.1.1, hs'.1.1, hboth.1.2 ⟨hsize, canCount_of_any hs.2⟩,
    hboth.2.2 ⟨hsize, canCount_of_any hs'.2⟩⟩

/-- A value of 2^32 - 1 bytes and a key of one byte make an object of size zero, on which both
additions abort, also in the empty containers. -/
theorem object_size_wraps_aborts :
    Runs (LocalUncachedLru.step 1000) anyAction .empty [] .empty ∧
      Runs (CacheMetadataBase.uncachedStep 1000) anyAction .empty [] .empty ∧
      LocalUncachedLru.empty.addForNewKey 1000 { weights := ⟨1, 1 / 2⟩ } ⟨[1]⟩
        (.ofSize 4294967295) false = none ∧
      (CacheMetadataBase.empty : CacheMetadataBase HomoKeyLevelMetadata).addForNewKey (some 1000)
        { weights := ⟨1, 1 / 2⟩ } ⟨[1]⟩ (.ofSize 4294967295) false false 1 1 = none := by
  refine ⟨.nil, .nil, ?_, ?_⟩
  · decide +kernel
  · decide +kernel

end Covered.Cache
