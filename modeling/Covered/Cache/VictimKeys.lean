import Covered.Cache.LocalCacheAlignment
import Covered.Cache.LocalCacheBehavior
import Covered.Lib.ShortestPrefix

/-!
# The victims of a required size

`rankedKeys` are the cached keys in the ascending order of their rewards, with those of equal
rewards in the order in which they got them. Of a sound cache `getLocalCacheVictimKeys` takes their
shortest prefix whose keys and values have the required size, and it fails if all objects together
do not have it. An eviction takes its key out of the order and leaves the rest as it is.
-/

set_option autoImplicit false

namespace Covered.Cache.LocalCache

open Common Lib Lib.Checked Lib.Simulation CacheMetadataBase Victim List VictimCacheinfo
open Option hiding bind_eq_some_iff

/-- The cached keys in the order of their rewards. -/
def rankedKeys (c : LocalCache) : List Key :=
  c.localCachedMetadata.sortedRewardMultimap.toList.map Prod.snd

/-- The bytes of the key and the value of a cached object. -/
def objectBytes (c : LocalCache) (key : Key) : Nat := (c.cachedSizes key).getD 0

/-- The bytes of the keys and values of all cached objects. -/
def totalObjectBytes (c : LocalCache) : Nat := (c.rankedKeys.map c.objectBytes).sum

/-! ## The answers of the cache -/

/-- The cache answers the ranks with the victims of a list. -/
def Answers (c : LocalCache) (order : List VictimCacheinfo) : Prop :=
  ∀ rank, c.getVictimCacheinfo rank = some order[rank]?

theorem getVictimCacheinfo_of_none (c : LocalCache) {rank : Nat}
    (hrank : c.rankedKeys[rank]? = none) : c.getVictimCacheinfo rank = some none := by
  rw [rankedKeys, getElem?_map, map_eq_none_iff] at hrank
  simp only [getVictimCacheinfo, CacheMetadataBase.getLeastRewardKeyAndReward, hrank,
    map_none]

/-- An answered victim has the key of its rank, is complete and has the bytes of its object. -/
theorem answer_spec {c : LocalCache} {rank : Nat} {victim : Option VictimCacheinfo}
    (h : c.getVictimCacheinfo rank = some victim) :
    victim.map key = c.rankedKeys[rank]? ∧
      ∀ v, victim = some v → v.isComplete = true ∧
        ∃ value, c.coveredCache.lookup v.key = some value ∧
          v.objectSize = objectSize v.key value := by
  rw [rankedKeys, getElem?_map]
  rw [getVictimCacheinfo, CacheMetadataBase.getLeastRewardKeyAndReward] at h
  cases hpair : c.localCachedMetadata.sortedRewardMultimap.toList[rank]? with
  | none =>
    rw [hpair] at h
    cases h
    exact ⟨rfl, fun _ hv => by cases hv⟩
  | some pair =>
    rw [hpair] at h
    simp only [map_some, bind_eq_some_iff, require_eq_some_iff, pure_eq_some_iff] at h
    obtain ⟨size, -, t, -, value, hvalue, -, hsize, rfl⟩ := h
    refine ⟨rfl, ?_⟩
    rintro _ ⟨⟩
    exact ⟨isComplete_create .., value, hvalue, hsize⟩

section Answers

variable {c : LocalCache} {order : List VictimCacheinfo} {requiredSize : Nat}

theorem Answers.map_key (h : c.Answers order) : order.map key = c.rankedKeys := by
  apply ext_getElem?
  intro rank
  rw [getElem?_map]
  exact (answer_spec (h rank)).1

theorem Answers.collectSyncedVictims_eq (h : c.Answers order) (remaining rank : Nat) :
    c.collectSyncedVictims remaining rank = some ((order.drop rank).take remaining) := by
  induction remaining generalizing rank with
  | zero => rfl
  | succ remaining ih =>
    simp only [collectSyncedVictims, h rank, some_bind]
    cases hdrop : order.drop rank with
    | nil => simp only [← head?_drop, hdrop, head?_nil, Option.pure_def, take_nil]
    | cons victim rest =>
      have hrest : order.drop (rank + 1) = rest := by rw [← tail_drop, hdrop]; rfl
      simp only [← head?_drop, hdrop, head?_cons, ih, hrest, some_bind, Option.pure_def,
        take_succ_cons]

/-- The loop takes the shortest prefix of what is left that has the rest of the required size, and
it fails if there is none. -/
theorem Answers.collectVictimKeys_eq (h : c.Answers order) {rest : List VictimCacheinfo}
    (fuel rank total : Nat) (hdrop : order.drop rank = rest) (hfuel : rest.length < fuel)
    (hfits : total + (rest.map VictimCacheinfo.objectSize).sum < uint64Limit ∨
      ∀ v ∈ rest, requiredSize + v.objectSize ≤ uint64Limit) :
    c.collectVictimKeys requiredSize fuel rank total =
      if requiredSize ≤ total + (rest.map VictimCacheinfo.objectSize).sum then
        some (shortestPrefix VictimCacheinfo.objectSize (requiredSize - total) rest)
      else none := by
  induction rest generalizing fuel rank total with
  | nil =>
    obtain ⟨fuel, rfl⟩ := Nat.exists_eq_succ_of_ne_zero (Nat.ne_of_gt hfuel)
    rw [map_nil, sum_nil, Nat.add_zero total, collectVictimKeys]
    by_cases hdone : total < requiredSize
    · simp only [if_pos hdone, if_neg (Nat.not_le.2 hdone), h rank, ← head?_drop, hdrop,
        head?_nil, some_bind]
    · rw [if_neg hdone, if_pos (Nat.not_lt.1 hdone)]
      rfl
  | cons v rest ih =>
    obtain ⟨fuel, rfl⟩ := Nat.exists_eq_succ_of_ne_zero (Nat.ne_of_gt (Nat.zero_lt_of_lt hfuel))
    rw [map_cons, sum_cons] at hfits ⊢
    rw [collectVictimKeys]
    by_cases hdone : total < requiredSize
    · have hsum : (total + v.objectSize) % uint64Limit = total + v.objectSize := by
        refine Nat.mod_eq_of_lt ?_
        rcases hfits with hfits | hfits
        · omega
        · have hv := hfits v mem_cons_self
          omega
      have hrest := ih fuel (rank + 1) (total + v.objectSize)
        (by rw [← tail_drop, hdrop]; rfl) (Nat.lt_of_succ_lt_succ hfuel)
        (hfits.imp (fun hlt => by omega) fun hall v hv => hall v (mem_cons_of_mem _ hv))
      rw [if_pos hdone, h rank, ← head?_drop, hdrop, head?_cons,
        shortestPrefix_cons v (by omega), ← Nat.add_assoc]
      simp only [some_bind, hsum, hrest, Nat.sub_sub]
      split <;> rfl
    · rw [if_neg hdone, if_pos (by omega), Nat.sub_eq_zero_of_le (Nat.not_lt.1 hdone),
        shortestPrefix_zero]

theorem Answers.collectVictimKeys_start (h : c.Answers order)
    (hfits : 0 + (order.map VictimCacheinfo.objectSize).sum < uint64Limit ∨
      ∀ v ∈ order, requiredSize + v.objectSize ≤ uint64Limit) :
    c.collectVictimKeys requiredSize
        (c.localCachedMetadata.sortedRewardMultimap.toList.length + 1) 0 0 =
      if requiredSize ≤ (order.map VictimCacheinfo.objectSize).sum then
        some (shortestPrefix VictimCacheinfo.objectSize requiredSize order)
      else none := by
  have hlength : order.length < c.localCachedMetadata.sortedRewardMultimap.toList.length + 1 := by
    rw [← length_map key, h.map_key, rankedKeys, length_map]
    exact Nat.lt_succ_self _
  rw [h.collectVictimKeys_eq _ 0 0 drop_zero hlength hfits, Nat.zero_add, Nat.sub_zero]

theorem Answers.getLocalCacheVictimKeys_eq (h : c.Answers order)
    (hfits : 0 + (order.map VictimCacheinfo.objectSize).sum < uint64Limit ∨
      ∀ v ∈ order, requiredSize + v.objectSize ≤ uint64Limit)
    (hle : requiredSize ≤ (order.map VictimCacheinfo.objectSize).sum)
    (hvalid : ∀ v ∈ shortestPrefix VictimCacheinfo.objectSize requiredSize order,
      c.capacityBytes > v.objectSize) :
    c.getLocalCacheVictimKeys requiredSize =
      some (shortestPrefix VictimCacheinfo.objectSize requiredSize order) := by
  rw [getLocalCacheVictimKeys, h.collectVictimKeys_start hfits, if_pos hle]
  simp only [some_bind, require_of hvalid, Option.pure_def]

end Answers

namespace Sizes

variable {c c' : LocalCache} {u w : Key → Option Nat} {key : Key} {value : Value} {rank : Nat}

theorem mem_rankedKeys (h : Sizes c u w) : key ∈ c.rankedKeys ↔ c.isLocalCached key = true := by
  obtain ⟨v, hv, hsizes⟩ := h.cached
  have hnone : v.sizes key = none ↔ key ∉ v.keys := LruRecords.sizes_eq_none_iff
  rw [hsizes, cachedSizes, map_eq_none_iff] at hnone
  rw [rankedKeys, hv.multimap, v.perm.mem_iff, isLocalCached, isSome_iff_ne_none, ne_eq,
    hnone, not_not]
  exact Iff.rfl

theorem nodup_rankedKeys (h : Sizes c u w) : c.rankedKeys.Nodup := by
  obtain ⟨v, hv, -⟩ := h.cached
  rw [rankedKeys, hv.multimap]
  exact v.nodup_rewards

/-- The bytes of all objects are those that the cache counts. -/
theorem totalObjectBytes_eq (h : Sizes c u w) : c.totalObjectBytes = c.internalKvbytes := by
  have hperm : c.coveredCache.keys.Perm c.rankedKeys :=
    UnorderedMap.perm_keys _ h.nodup_rankedKeys fun key => h.mem_rankedKeys.symm
  have hsum : ∀ l : List ((_ : Key) × Value), (∀ p ∈ l, c.coveredCache.lookup p.1 = some p.2) →
      ((l.map Sigma.fst).map c.objectBytes).sum = (l.map fun p => pairSize p.1 p.2).sum := by
    intro l hl
    induction l with
    | nil => rfl
    | cons p rest ih =>
      have hp : c.objectBytes p.1 = pairSize p.1 p.2 := by
        rw [objectBytes, cachedSizes_of_lookup (hl p mem_cons_self), getD_some]
      rw [map_cons, map_cons, map_cons, sum_cons, sum_cons, hp,
        ih fun q hq => hl q (mem_cons_of_mem p hq)]
  rw [totalObjectBytes, ← (hperm.map c.objectBytes).sum_eq, h.kvbytes]
  exact hsum c.coveredCache.entries fun p hp => (UnorderedMap.mem_entries_iff _ p.1 p.2).1 hp

/-! ## The selection -/

/-- What the cache tells of the object of a rank. -/
structure VictimOf (c : LocalCache) (key : Key) (victim : VictimCacheinfo) : Prop where
  key_eq : victim.key = key
  size_eq : victim.objectSize = c.objectBytes key
  complete : victim.isComplete = true
  valid : c.capacityBytes > victim.objectSize

theorem getVictimCacheinfo_of_some (h : Sizes c u w) (hrank : c.rankedKeys[rank]? = some key) :
    ∃ victim, c.getVictimCacheinfo rank = some (some victim) ∧ VictimOf c key victim := by
  have hcached := (h.mem_rankedKeys).1 (mem_of_getElem? hrank)
  obtain ⟨value, hlookup⟩ := isSome_iff_exists.1 hcached
  have hbytes := cachedSizes_of_lookup hlookup
  have hsize := h.cached.getObjectSize key
  rw [hbytes] at hsize
  obtain ⟨v, hv, hsizes⟩ := h.cached
  rw [← hsizes] at hbytes
  obtain ⟨t, hrecord, -⟩ := LruRecords.exists_of_sizes hbytes
  have hmetadata := hv.getkeyLevelMetadata key
  rw [hrecord] at hmetadata
  rw [rankedKeys, getElem?_map, map_eq_some_iff] at hrank
  obtain ⟨⟨reward, k⟩, hpair, rfl⟩ := hrank
  have hobject := (h.fits_of_lookup hlookup).objectSize_eq
  have hleast : c.localCachedMetadata.getLeastRewardKeyAndReward rank = some (k, reward) := by
    rw [CacheMetadataBase.getLeastRewardKeyAndReward, hpair]
    rfl
  refine ⟨.create k (pairSize k value) t.base.localPopularity t.redirectedPopularity reward
    t.redirectedRewardPopularity, ?_, rfl, ?_, isComplete_create .., ?_⟩
  · simp only [getVictimCacheinfo, hleast, hsize, hmetadata, hlookup, some_bind,
      require_of hobject.symm]
    rfl
  · show pairSize k value = (c.cachedSizes k).getD 0
    rw [cachedSizes_of_lookup hlookup, getD_some]
  · have hvalid := of_decide_eq_true (h.valid k value hlookup)
    rw [hobject] at hvalid
    exact hvalid

/-- The victims are what the cache tells of these keys. -/
def VictimsOf (c : LocalCache) (keys : List Key) (victims : List VictimCacheinfo) : Prop :=
  List.Forall₂ (VictimOf c) keys victims

variable {keys : List Key}

variable {victims : List VictimCacheinfo}

theorem VictimsOf.map_key (h : VictimsOf c keys victims) :
    victims.map VictimCacheinfo.key = keys :=
  (map_eq_of_forall₂ (fun _ _ hof => hof.key_eq.symm) h).symm.trans keys.map_id

theorem VictimsOf.exists_victim (h : VictimsOf c keys victims)
    {victim : VictimCacheinfo} (hvictim : victim ∈ victims) :
    ∃ key, VictimOf c key victim := by
  induction h with
  | nil => cases hvictim
  | cons hfirst _ ih =>
    rcases mem_cons.1 hvictim with rfl | hrest
    · exact ⟨_, hfirst⟩
    · exact ih hrest

/-- A sound cache answers each rank. -/
theorem exists_answers (h : Sizes c u w) :
    ∃ order, c.Answers order ∧ VictimsOf c c.rankedKeys order := by
  have key : ∀ (keys : List Key) (rank : Nat), c.rankedKeys.drop rank = keys →
      ∃ order, VictimsOf c keys order ∧
        ∀ i, c.getVictimCacheinfo (rank + i) = some order[i]? := by
    intro keys
    induction keys with
    | nil =>
      intro rank hdrop
      refine ⟨[], .nil, fun i => c.getVictimCacheinfo_of_none ?_⟩
      rw [← getElem?_drop, hdrop, getElem?_nil]
    | cons key rest ih =>
      intro rank hdrop
      have hrank : c.rankedKeys[rank]? = some key := by
        rw [← head?_drop, hdrop, head?_cons]
      obtain ⟨victim, hvictim, hof⟩ := h.getVictimCacheinfo_of_some hrank
      obtain ⟨order, horder, hanswers⟩ := ih (rank + 1) (by rw [← tail_drop, hdrop]; rfl)
      refine ⟨victim :: order, .cons hof horder, fun i => ?_⟩
      cases i with
      | zero => exact hvictim
      | succ i => rw [getElem?_cons_succ, ← hanswers i, Nat.add_right_comm, Nat.add_assoc]
  obtain ⟨order, horder, hanswers⟩ := key c.rankedKeys 0 rfl
  exact ⟨order, fun rank => by rw [← hanswers rank, Nat.zero_add], horder⟩

/-- The bytes of all victims fit into 64 bits. -/
theorem sum_lt (h : Sizes c u w) {order : List VictimCacheinfo}
    (horder : VictimsOf c c.rankedKeys order) :
    (order.map VictimCacheinfo.objectSize).sum = c.totalObjectBytes ∧
      0 + (order.map VictimCacheinfo.objectSize).sum < uint64Limit := by
  have hsum : (order.map VictimCacheinfo.objectSize).sum = c.totalObjectBytes := by
    exact congrArg sum (map_eq_of_forall₂ (fun _ _ hof => hof.size_eq.symm) horder).symm
  rw [Nat.zero_add, hsum, h.totalObjectBytes_eq]
  exact ⟨rfl, h.lt⟩

/-- The victims of a required size that all objects together have. -/
theorem getLocalCacheVictimKeys_eq (h : Sizes c u w) {requiredSize : Nat}
    (hle : requiredSize ≤ c.totalObjectBytes) :
    ∃ victims, c.getLocalCacheVictimKeys requiredSize = some victims ∧
      VictimsOf c (shortestPrefix c.objectBytes requiredSize c.rankedKeys) victims := by
  obtain ⟨order, hanswers, horder⟩ := h.exists_answers
  obtain ⟨hsum, hlt⟩ := h.sum_lt horder
  have hvictims : VictimsOf c (shortestPrefix c.objectBytes requiredSize c.rankedKeys)
      (shortestPrefix VictimCacheinfo.objectSize requiredSize order) :=
    forall₂_shortestPrefix (fun _ _ hof => hof.size_eq.symm) horder
  refine ⟨_, ?_, hvictims⟩
  refine hanswers.getLocalCacheVictimKeys_eq (.inl hlt) (hsum ▸ hle) fun victim hvictim => ?_
  obtain ⟨key, hof⟩ := hvictims.exists_victim hvictim
  exact hof.valid

theorem getLocalCacheVictimKeys_eq_none (h : Sizes c u w) {requiredSize : Nat}
    (hlt : c.totalObjectBytes < requiredSize) : c.getLocalCacheVictimKeys requiredSize = none := by
  obtain ⟨order, hanswers, horder⟩ := h.exists_answers
  obtain ⟨hsum, hfits⟩ := h.sum_lt horder
  rw [getLocalCacheVictimKeys, hanswers.collectVictimKeys_start (.inl hfits),
    if_neg (Nat.not_le.2 (hsum ▸ hlt))]
  rfl

/-- The victims that other edges are told are those of the first keys. -/
theorem exists_getLocalSyncedVictimCacheinfos (h : Sizes c u w) (peredgeSyncedVictimcnt : Nat) :
    ∃ victims, c.getLocalSyncedVictimCacheinfos peredgeSyncedVictimcnt = some victims ∧
      VictimsOf c (c.rankedKeys.take peredgeSyncedVictimcnt) victims := by
  obtain ⟨order, hanswers, horder⟩ := h.exists_answers
  have hvictims : VictimsOf c (c.rankedKeys.take peredgeSyncedVictimcnt)
      (order.take peredgeSyncedVictimcnt) := forall₂_take _ horder
  have hvalid : ∀ victim ∈ order.take peredgeSyncedVictimcnt,
      c.capacityBytes > victim.objectSize := fun victim hvictim => by
    obtain ⟨key, hof⟩ := hvictims.exists_victim hvictim
    exact hof.valid
  refine ⟨_, ?_, hvictims⟩
  simp only [getLocalSyncedVictimCacheinfos, hanswers.collectSyncedVictims_eq, drop_zero,
    some_bind, require_of hvalid, Option.pure_def]

end Sizes

/-! ## An eviction -/

variable {v : TrackedKeys HeteroKeyLevelMetadata}

/-- The container without a key is not larger. -/
theorem exists_size_removeKey {key : Key}
    {t : HeteroKeyLevelMetadata} {n : Nat} (hrecord : v.record key = some t)
    (h : v.getSizeForCapacity true = some n) :
    ∃ m ≤ n, (v.removeKey key).getSizeForCapacity true = some m := by
  have hlength : (v.removeKey key).lru.length + 1 = v.lru.length :=
    LruRecords.length_removeKey hrecord
  have hgroups : (v.removeKey key).groupIds.dedup.length ≤ v.groupIds.dedup.length :=
    v.toLruRecords.groupCnt_removeKey key
  have hbytes : bytesOfKeys (v.removeKey key).keys + key.getKeyLength = bytesOfKeys v.keys :=
    LruRecords.bytesOfKeys_erase hrecord
  simp only [TrackedKeys.getSizeForCapacity, GroupLevelMetadata.getSizeForCapacity, if_true,
    bind_eq_some_iff, some.injEq] at h
  obtain ⟨a, ha, b, hb, d, hd, e, he, f, hf, g, rfl, i, hi, h⟩ := h
  have hlt := uint64Add_lt h
  have ha := uint64Add_eq_some ha
  have hb := uint64Add_eq_some hb
  have hd := uint64Add_eq_some hd
  have he := uint64Add_eq_some he
  have hf := uint64Add_eq_some hf
  have hi := uint64Add_eq_some hi
  have h := uint64Add_eq_some h
  have hmul := Nat.mul_le_mul_right (KeyLevelMetadata.sizeForCapacity HeteroKeyLevelMetadata)
    (Nat.le_of_lt (Nat.lt_of_succ_le hlength.le))
  simp only [TrackedKeys.getSizeForCapacity, GroupLevelMetadata.getSizeForCapacity, if_true,
    bind_eq_bind]
  simp (disch := omega) only [uint64Add_eq, bind_some]
  exact ⟨_, by omega, rfl⟩

/-- What is left of the container. -/
theorem removed_of_removeForExistingKey {s s' : CacheMetadataBase HeteroKeyLevelMetadata}
    {key : Key} (hv : Represents s v) (hs : s.removeForExistingKey key = some s') :
    s'.sortedRewardMultimap.toList.map Prod.snd =
        (s.sortedRewardMultimap.toList.map Prod.snd).filter (fun k => decide (k ≠ key)) ∧
      ∀ n, s.getSizeForCapacity true = some n → ∃ m ≤ n, s'.getSizeForCapacity true = some m := by
  obtain ⟨v', hremove, hv'⟩ := exists_of_rel (hv.removeForExistingKey key) hs
  simp only [TrackedKeys.remove, bind_eq_some_iff, pure_eq_some_iff] at hremove
  obtain ⟨t, hrecord, rfl⟩ := hremove
  rw [hv.multimap, hv'.multimap, hv.getSizeForCapacity, hv'.getSizeForCapacity]
  exact ⟨KeyedList.map_erase v.nodup_rewards, fun n hn => exists_size_removeKey hrecord hn⟩

/-- What an eviction of a key leaves: the other objects in their order, and no more bytes. -/
structure EvictedOf (c c' : LocalCache) (key : Key) : Prop where
  sound : Sound c'
  rankedKeys : c'.rankedKeys = c.rankedKeys.filter fun k => decide (k ≠ key)
  objects : ∀ k, c'.coveredCache.lookup k = if k = key then none else c.coveredCache.lookup k
  capacityBytes : c'.capacityBytes = c.capacityBytes
  size : ∀ n, c.getSizeForCapacity = some n → ∃ m ≤ n, c'.getSizeForCapacity = some m

namespace Sizes

variable {c : LocalCache} {u w : Key → Option Nat} {key : Key}

theorem exists_evicted (h : Sizes c u w) (hkey : key ∈ c.rankedKeys) :
    ∃ c' value, c.evictLocalCacheWithGivenKey key = some (c', some value) ∧ EvictedOf c c' key := by
  obtain ⟨value, hlookup⟩ := isSome_iff_exists.1 (h.mem_rankedKeys.1 hkey)
  obtain ⟨c', hevict, hsound⟩ := h.exists_evict hlookup
  refine ⟨c', value, hevict, ?_⟩
  simp only [evictLocalCacheWithGivenKey, hlookup, bind_eq_some_iff, require_eq_some_iff,
    pure_eq_some_iff, Prod.mk.injEq, and_true] at hevict
  obtain ⟨s, hs, -, -, rfl⟩ := hevict
  obtain ⟨v, hv, -⟩ := h.cached
  obtain ⟨hranked, hsize⟩ := removed_of_removeForExistingKey hv hs
  refine ⟨hsound, hranked, fun k => UnorderedMap.lookup_erase_eq _ k key, rfl, fun n hn => ?_⟩
  have hkvbytes : uint64Minus c.internalKvbytes (objectSize key value) ≤ c.internalKvbytes := by
    have hsum := UnorderedMap.sumBy_erase pairSize c.coveredCache key
    rw [hlookup, elim_some, ← h.kvbytes] at hsum
    rw [(h.fits_of_lookup hlookup).objectSize_eq, uint64Minus_eq h.lt (by omega)]
    exact Nat.sub_le _ _
  simp only [getSizeForCapacity, bind_eq_some_iff] at hn
  obtain ⟨cached, hcached, a, ha, uncached, huncached, b, hb, lru, hlru, hn⟩ := hn
  obtain ⟨cached', hle, hcached'⟩ := hsize cached hcached
  have hlt := uint64Add_lt hn
  have ha := uint64Add_eq_some ha
  have hb := uint64Add_eq_some hb
  have hn := uint64Add_eq_some hn
  simp only [getSizeForCapacity, hcached', huncached, hlru, bind_eq_bind, bind_some]
  simp (disch := omega) only [uint64Add_eq, bind_some]
  exact ⟨_, by omega, rfl⟩

end Sizes

end Covered.Cache.LocalCache
