import Covered.Cache.CoveredCacheWrapper
import Covered.Cache.VictimKeys
import Covered.Victim.VictimTracker

/-!
# Evicting a COVERED edge down to its capacity

`evictForCapacity` evicts in rounds as long as the edge uses more bytes than its capacity. A round
asks the local cache for victims whose objects have the bytes in excess, evicts them, and tells the
victim tracker which victims come next.

The bytes in use are those of the objects, of their metadata and of the other components, but the
victims are found by the bytes of their objects alone. The local cache ends the process when all
objects together do not have the bytes in excess, also where their eviction would free enough of
them. `evictForCapacity_iff` says that this is the only way to fail: the loop gets down to the
capacity iff no round starts with an excess that the objects do not have.

A victim that leaves makes room for the next one in the tracker, which may count more bytes, so
there can be several rounds.
-/

set_option autoImplicit false

namespace Covered.Edge.CoveredEviction

open Cache Common Lib Lib.Checked Lib.Execution Victim UnorderedMap List LocalCache
open ConcurrentHashtable

/-! ## The edge -/

/-- The components of an edge that an eviction changes, and the bytes of those that it does not. -/
structure CoveredEdge where
  localCache : LocalCache
  validityMap : ValidityMap := {}
  perkeyBeaconEdgeidx : UnorderedMap Key Nat := ∅
  victimTracker : VictimTracker
  cooperationSize : Nat := 0
  popularityAggregatorSize : Nat := 0
  directoryCacherSize : Nat := 0
  weightTunerSize : Nat := 0

/-- The order in which a hash set returns keys. -/
abbrev HashOrder := List Key → List Key

namespace CoveredEdge

/-- The bytes of the cache wrapper: the local cache and the validity flags. -/
def edgeCacheSize (e : CoveredEdge) : Option Nat := do
  let localEdgeCacheSize ← e.localCache.getSizeForCapacity
  uint64Add localEdgeCacheSize e.validityMap.totalValueSize

/-- The bytes of the edge. -/
def getSizeForCapacity (e : CoveredEdge) : Option Nat := do
  let edgeCacheSize ← e.edgeCacheSize
  let cacheManagerSize :=
    e.popularityAggregatorSize + e.victimTracker.sizeBytes + e.directoryCacherSize
  return (edgeCacheSize + e.cooperationSize + (cacheManagerSize + e.weightTunerSize)) % uint64Limit

def getCapacityBytes (e : CoveredEdge) : Nat := e.localCache.capacityBytes

/-- The bytes that are left up to the capacity. -/
def getCacheMarginBytes (e : CoveredEdge) : Option Nat := do
  let usedBytes ← e.getSizeForCapacity
  return if e.getCapacityBytes ≥ usedBytes then e.getCapacityBytes - usedBytes else 0

/-- A victim with the beacon that the edge noted for it. -/
def withBeaconEdgeidx (e : CoveredEdge) (victim : VictimCacheinfo) : VictimCacheinfo :=
  match e.perkeyBeaconEdgeidx.lookup victim.key with
  | some beaconEdgeidx => { victim with beaconEdgeidx := some beaconEdgeidx }
  | none => victim

/-- The victims that other edges are told. -/
def getLocalSyncedVictimCacheinfos (e : CoveredEdge) : Option (List VictimCacheinfo) := do
  let victims ←
    e.localCache.getLocalSyncedVictimCacheinfos e.victimTracker.peredgeSyncedVictimcnt
  return victims.map e.withBeaconEdgeidx

/-- `updateCacheManagerForLocalSyncedVictimsInternal_` after an eviction. -/
def updateCacheManagerForLocalSyncedVictims (view : CooperationView) (e : CoveredEdge) :
    Option CoveredEdge := do
  let localCacheMarginBytes ← e.getCacheMarginBytes
  let victims ← e.getLocalSyncedVictimCacheinfos
  let victimTracker ←
    e.victimTracker.updateLocalSyncedVictims localCacheMarginBytes victims view
  return { e with victimTracker }

/-! ## The rounds -/

/-- Evict one victim; the process ends if it is not cached or has no flag. -/
def evictVictim (e : CoveredEdge) (key : Key) : Option (CoveredEdge × Value) := do
  let (localCache, victim) ← e.localCache.evictLocalCacheWithGivenKey key
  let value ← victim
  require ((e.validityMap.eraseFlagForKey key).2 = true)
  return ({ e with localCache, validityMap := (e.validityMap.eraseFlagForKey key).1 }, value)

/-- Evict the victims one after the other. -/
def evictVictims (e : CoveredEdge) (victims : UnorderedMap Key Value) :
    List Key → Option (CoveredEdge × UnorderedMap Key Value)
  | [] => some (e, victims)
  | key :: rest => do
      let (e, value) ← e.evictVictim key
      e.evictVictims (UnorderedMap.insertNew victims key value) rest

/-- The evicted keys lose their beacons. -/
def eraseBeaconEdgeidxs (e : CoveredEdge) (keys : List Key) : CoveredEdge :=
  { e with perkeyBeaconEdgeidx :=
      keys.foldl (fun map key => map.erase key) e.perkeyBeaconEdgeidx }

/-- Evict the given keys and tell the victim tracker. -/
def evictKeys (order : HashOrder) (view : CooperationView) (e : CoveredEdge) (keys : List Key) :
    Option (CoveredEdge × UnorderedMap Key Value) := do
  require (keys ≠ [])
  let (e, victims) ← e.evictVictims ∅ (order keys)
  let e ← (e.eraseBeaconEdgeidxs victims.keys).updateCacheManagerForLocalSyncedVictims view
  return (e, victims)

/-- `evictLocalEdgeCache_`: victims for the required size. -/
def evictLocalEdgeCache (order : HashOrder) (view : CooperationView) (e : CoveredEdge)
    (requiredSize : Nat) : Option (CoveredEdge × UnorderedMap Key Value) := do
  let victims ← e.localCache.getLocalCacheVictimKeys requiredSize
  e.evictKeys order view (victims.map VictimCacheinfo.key)

/-- The victims of all rounds with those of another round. -/
def addVictims (totalVictims victims : UnorderedMap Key Value) : UnorderedMap Key Value :=
  victims.entries.foldl (fun total p => UnorderedMap.insertNew total p.1 p.2) totalVictims

/-- `evictForCapacity_` up to the directory updates: rounds until the edge is within its capacity.
Returns the victims of all rounds, whose directories are evicted then. -/
def evictForCapacity (order : HashOrder) (view : CooperationView) :
    Nat → CoveredEdge → UnorderedMap Key Value → Option (CoveredEdge × UnorderedMap Key Value)
  | 0, _, _ => none
  | fuel + 1, e, totalVictims => do
      let usedBytes ← e.getSizeForCapacity
      if usedBytes ≤ e.getCapacityBytes then return (e, totalVictims)
      else
        let (e, victims) ← e.evictLocalEdgeCache order view (usedBytes - e.getCapacityBytes)
        evictForCapacity order view fuel e (addVictims totalVictims victims)

/-- The bytes in excess of the capacity. -/
def excessBytes (e : CoveredEdge) : Nat := e.getSizeForCapacity.getD 0 - e.getCapacityBytes

/-- A round, which starts if there are bytes in excess. -/
def round (order : HashOrder) (view : CooperationView) (e : CoveredEdge) (_ : Unit) :
    Option (CoveredEdge × UnorderedMap Key Value) := do
  require (0 < e.excessBytes)
  e.evictLocalEdgeCache order view e.excessBytes

/-! ## What an eviction leaves -/

/-- The parts of the edge fit together: the local cache is sound, every cached key has a flag, the
bytes of the cache do not overflow and the tracker holds complete victims. -/
structure WellFormed (e : CoveredEdge) : Prop where
  sound : e.localCache.Sound
  flags : ∀ key, e.localCache.isLocalCached key = true → e.validityMap.isExist key = true
  size : e.edgeCacheSize.isSome = true
  tracker : e.victimTracker.CompleteMetadata

/-- The edge without some keys. -/
structure Evicted (e e' : CoveredEdge) (keys : List Key) : Prop where
  wellFormed : e'.WellFormed
  rankedKeys : e'.localCache.rankedKeys =
    e.localCache.rankedKeys.filter fun key => decide (key ∉ keys)
  capacityBytes : e'.getCapacityBytes = e.getCapacityBytes

/-- The map holds values for these keys. -/
def Holds (victims : UnorderedMap Key Value) (keys : List Key) : Prop :=
  ∀ key, (victims.lookup key).isSome = decide (key ∈ keys)

theorem Evicted.trans {e e' e'' : CoveredEdge} {keys keys' : List Key} (h : Evicted e e' keys)
    (h' : Evicted e' e'' keys') : Evicted e e'' (keys ++ keys') where
  wellFormed := h'.wellFormed
  rankedKeys := by
    rw [h'.rankedKeys, h.rankedKeys, filter_filter]
    refine filter_congr fun key _ => ?_
    rw [← Bool.decide_and]
    refine decide_eq_decide.2 ?_
    rw [mem_append, not_or]
    exact and_comm
  capacityBytes := h'.capacityBytes.trans h.capacityBytes

variable {e e' : CoveredEdge} {key : Key} {keys : List Key} {view : CooperationView}
  {order : HashOrder}

theorem WellFormed.exists_size (h : e.WellFormed) : ∃ n, e.getSizeForCapacity = some n := by
  obtain ⟨n, hn⟩ := Option.isSome_iff_exists.1 h.size
  rw [getSizeForCapacity, hn]
  exact ⟨_, rfl⟩

theorem WellFormed.mem_rankedKeys (h : e.WellFormed) :
    key ∈ e.localCache.rankedKeys ↔ e.localCache.isLocalCached key = true := by
  obtain ⟨u, w, hsizes⟩ := h.sound
  exact hsizes.mem_rankedKeys

theorem WellFormed.nodup_rankedKeys (h : e.WellFormed) : e.localCache.rankedKeys.Nodup := by
  obtain ⟨u, w, hsizes⟩ := h.sound
  exact hsizes.nodup_rankedKeys

/-- The flags without one are not larger. -/
theorem totalValueSize_eraseFlagForKey (map : ValidityMap) (key : Key) :
    (map.eraseFlagForKey key).1.totalValueSize ≤ map.totalValueSize := by
  rw [ValidityMap.eraseFlagForKey, eraseIfExist]
  split
  · exact le_rfl
  · exact Nat.sub_le _ _

theorem WellFormed.exists_evictVictim (h : e.WellFormed) (hkey : key ∈ e.localCache.rankedKeys) :
    ∃ e' value, e.evictVictim key = some (e', value) ∧ Evicted e e' [key] := by
  obtain ⟨u, w, hsizes⟩ := h.sound
  obtain ⟨c', value, hevict, hof⟩ := hsizes.exists_evicted hkey
  have hflag : (e.validityMap.eraseFlagForKey key).2 = true :=
    (eraseIfExist_snd e.validityMap key).trans
      (h.flags key (h.mem_rankedKeys.1 hkey))
  refine ⟨{ e with
    localCache := c', validityMap := (e.validityMap.eraseFlagForKey key).1 }, value, ?_, ?_⟩
  · simp only [evictVictim, hevict, some_bind, require_of hflag, Option.pure_def]
  · refine ⟨⟨hof.sound, fun k hk => ?_, ?_, h.tracker⟩, ?_, hof.capacityBytes⟩
    · -- a key that is still cached is another one, and the flags of the others stay
      have hfind : (e.validityMap.eraseFlagForKey key).1.find =
          Function.update e.validityMap.find key none :=
        find_eraseIfExist e.validityMap key
      have hcached : (c'.coveredCache.lookup k).isSome = true := hk
      rw [hof.objects] at hcached
      split at hcached
      · cases hcached
      · next hne =>
        show ((e.validityMap.eraseFlagForKey key).1.find k).isSome = true
        rw [hfind, Function.update_of_ne hne]
        exact h.flags k hcached
    · obtain ⟨n, hn⟩ := Option.isSome_iff_exists.1 h.size
      simp only [edgeCacheSize, bind_eq_some_iff] at hn
      obtain ⟨a, ha, hn⟩ := hn
      obtain ⟨a', hle, ha'⟩ := hof.size a ha
      have hlt := uint64Add_lt hn
      have hsum := uint64Add_eq_some hn
      have hvalue := totalValueSize_eraseFlagForKey e.validityMap key
      simp only [edgeCacheSize, ha', some_bind]
      rw [uint64Add_eq (by omega)]
      rfl
    · rw [hof.rankedKeys]
      refine filter_congr fun k _ => decide_eq_decide.2 ?_
      rw [mem_singleton]

theorem WellFormed.exists_evictVictims (h : e.WellFormed) (hnodup : keys.Nodup)
    (hkeys : ∀ key ∈ keys, key ∈ e.localCache.rankedKeys) (victims : UnorderedMap Key Value) :
    ∃ e' victims', e.evictVictims victims keys = some (e', victims') ∧ Evicted e e' keys ∧
      ∀ key, (victims'.lookup key).isSome =
        ((victims.lookup key).isSome || decide (key ∈ keys)) := by
  induction keys generalizing e victims with
  | nil =>
    refine ⟨e, victims, rfl, ⟨h, ?_, rfl⟩, fun key => ?_⟩
    · exact (filter_eq_self.2 fun key _ => decide_eq_true not_mem_nil).symm
    · rw [decide_eq_false not_mem_nil, Bool.or_false]
  | cons key rest ih =>
    obtain ⟨hnotin, hrest⟩ := nodup_cons.1 hnodup
    obtain ⟨e₁, value, hvictim, hone⟩ := h.exists_evictVictim (hkeys key mem_cons_self)
    obtain ⟨e', victims', hevict, hevicted, hvictims⟩ := ih hone.wellFormed hrest
      (fun k hk => by
        rw [hone.rankedKeys]
        refine mem_filter.2 ⟨hkeys k (mem_cons_of_mem key hk), decide_eq_true ?_⟩
        rw [mem_singleton]
        rintro rfl
        exact hnotin hk) (insertNew victims key value)
    refine ⟨e', victims', ?_, hone.trans hevicted, fun k => ?_⟩
    · simp only [evictVictims, hvictim, hevict, some_bind]
    · rw [hvictims, lookup_insertNew, Option.isSome_or, Bool.or_assoc,
        Bool.eq_iff_iff]
      by_cases hk : k = key
      · simp [hk]
      · simp [hk]

theorem isComplete_withBeaconEdgeidx (e : CoveredEdge) (victim : VictimCacheinfo) :
    (e.withBeaconEdgeidx victim).isComplete = victim.isComplete := by
  rw [withBeaconEdgeidx]
  split <;> rfl

/-- The victims for the tracker are complete and not too many. -/
theorem WellFormed.exists_syncedVictims (h : e.WellFormed) :
    ∃ victims, e.getLocalSyncedVictimCacheinfos = some victims ∧
      victims.length ≤ e.victimTracker.peredgeSyncedVictimcnt ∧
      ∀ victim ∈ victims, victim.isComplete = true := by
  obtain ⟨u, w, hsizes⟩ := h.sound
  obtain ⟨victims, hget, hof⟩ :=
    hsizes.exists_getLocalSyncedVictimCacheinfos e.victimTracker.peredgeSyncedVictimcnt
  refine ⟨victims.map e.withBeaconEdgeidx, ?_, ?_, fun victim hvictim => ?_⟩
  · simp only [getLocalSyncedVictimCacheinfos, hget, some_bind, Option.pure_def]
  · rw [length_map, ← hof.length_eq, length_take]
    exact Nat.min_le_left _ _
  · obtain ⟨v, hv, rfl⟩ := mem_map.1 hvictim
    obtain ⟨key, hkey⟩ := hof.exists_victim hv
    rw [isComplete_withBeaconEdgeidx]
    exact hkey.complete

theorem WellFormed.exists_updateCacheManager (h : e.WellFormed) (view : CooperationView) :
    ∃ e', e.updateCacheManagerForLocalSyncedVictims view = some e' ∧ Evicted e e' [] := by
  obtain ⟨n, hn⟩ := h.exists_size
  obtain ⟨victims, hvictims, hlength, hcomplete⟩ := h.exists_syncedVictims
  obtain ⟨t, ht⟩ : ∃ t, e.victimTracker.updateLocalSyncedVictims
      (if e.getCapacityBytes ≥ n then e.getCapacityBytes - n else 0) victims view = some t :=
    VictimTracker.updateLocalSyncedVictims_isSome h.tracker hlength hcomplete
  refine ⟨{ e with victimTracker := t }, ?_, ⟨h.sound, h.flags, h.size, ?_⟩, ?_, rfl⟩
  · simp only [updateCacheManagerForLocalSyncedVictims, getCacheMarginBytes, hn, hvictims,
      some_bind, Option.pure_def, ht]
  · obtain ⟨-, hsame⟩ := VictimTracker.updateLocalSyncedVictims_cases ht
    intro edgeIdx v hv
    rw [VictimTracker.victimsOf, hsame.metadata, VictimTracker.metadata_withMetadata] at hv
    split at hv
    · exact hcomplete v hv
    · exact h.tracker edgeIdx v hv
  · exact (filter_eq_self.2 fun key _ => decide_eq_true not_mem_nil).symm

/-- The victims of a round leave the edge, and nothing else does. -/
theorem WellFormed.exists_evictKeys (h : e.WellFormed) (view : CooperationView)
    (horder : ∀ l, (order l).Perm l) (hne : keys ≠ []) (hnodup : keys.Nodup)
    (hkeys : ∀ key ∈ keys, key ∈ e.localCache.rankedKeys) :
    ∃ e' victims, e.evictKeys order view keys = some (e', victims) ∧ Evicted e e' keys ∧
      Holds victims keys := by
  have hmem : ∀ key, key ∈ order keys ↔ key ∈ keys := fun key => (horder keys).mem_iff
  obtain ⟨e₁, victims, hevict, hone, hvictims⟩ :=
    h.exists_evictVictims ((horder keys).nodup_iff.2 hnodup)
      (fun key hkey => hkeys key ((hmem key).1 hkey)) ∅
  have hbeacons : (e₁.eraseBeaconEdgeidxs victims.keys).WellFormed :=
    ⟨hone.wellFormed.sound, hone.wellFormed.flags, hone.wellFormed.size, hone.wellFormed.tracker⟩
  obtain ⟨e', hupdate, hrest⟩ := hbeacons.exists_updateCacheManager view
  refine ⟨e', victims, ?_, ⟨hrest.wellFormed, ?_, ?_⟩, fun key => ?_⟩
  · simp only [evictKeys, require_of hne, hevict, hupdate, some_bind, Option.pure_def]
  · rw [hrest.rankedKeys]
    show (e₁.localCache.rankedKeys.filter _) = _
    rw [hone.rankedKeys, filter_eq_self.2 fun key _ => decide_eq_true not_mem_nil]
    exact filter_congr fun key _ => decide_eq_decide.2 (not_congr (hmem key))
  · exact hrest.capacityBytes.trans hone.capacityBytes
  · rw [hvictims, AList.lookup_empty]
    exact decide_eq_decide.2 (hmem key)

/-! ## A round -/

/-- The keys that have the bytes in excess. -/
def victimKeys (e : CoveredEdge) : List Key :=
  shortestPrefix e.localCache.objectBytes e.excessBytes e.localCache.rankedKeys

/-- All objects together have the bytes in excess. -/
def ObjectsSuffice (e : CoveredEdge) : Prop := e.excessBytes ≤ e.localCache.totalObjectBytes

/-- Each round takes a key at least. -/
theorem victimKeys_ne_nil (hexcess : 0 < e.excessBytes) (hsuffice : e.ObjectsSuffice) :
    e.victimKeys ≠ [] := by
  rw [victimKeys, ne_eq, shortestPrefix_eq_nil_iff]
  rintro (hzero | hnil)
  · exact Nat.ne_of_gt hexcess hzero
  · rw [ObjectsSuffice, totalObjectBytes, hnil] at hsuffice
    exact Nat.not_le_of_lt hexcess hsuffice

/-- A round takes the shortest prefix of the ranking that has the bytes in excess. -/
structure RoundOf (e e' : CoveredEdge) (victims : UnorderedMap Key Value) : Prop where
  wellFormed : e'.WellFormed
  rankedKeys : e.localCache.rankedKeys = e.victimKeys ++ e'.localCache.rankedKeys
  holds : Holds victims e.victimKeys
  capacityBytes : e'.getCapacityBytes = e.getCapacityBytes

theorem WellFormed.exists_round (h : e.WellFormed) (view : CooperationView)
    (horder : ∀ l, (order l).Perm l) (hexcess : 0 < e.excessBytes) (hsuffice : e.ObjectsSuffice) :
    ∃ e' victims, e.round order view () = some (e', victims) ∧ RoundOf e e' victims := by
  obtain ⟨u, w, hsizes⟩ := h.sound
  obtain ⟨infos, hinfos, hof⟩ := hsizes.getLocalCacheVictimKeys_eq hsuffice
  obtain ⟨rest, hrest⟩ : e.victimKeys <+: e.localCache.rankedKeys := shortestPrefix_isPrefix
  have hnodup := h.nodup_rankedKeys
  rw [← hrest] at hnodup
  have hne := victimKeys_ne_nil hexcess hsuffice
  obtain ⟨e', victims, hevict, hevicted, hholds⟩ :=
    h.exists_evictKeys view horder hne (nodup_append.1 hnodup).1 fun key hkey => by
      rw [← hrest]
      exact mem_append_left rest hkey
  refine ⟨e', victims, ?_, hevicted.wellFormed, ?_, hholds, hevicted.capacityBytes⟩
  · simp only [round, require_of hexcess, evictLocalEdgeCache, hinfos, hof.map_key, some_bind]
    exact hevict
  · -- the rest of the ranking is disjoint from the prefix, as no key is ranked twice
    have hself : e.victimKeys.filter (fun key => decide (key ∉ e.victimKeys)) = [] :=
      filter_eq_nil_iff.2 fun key hkey hnot => of_decide_eq_true hnot hkey
    have hother : rest.filter (fun key => decide (key ∉ e.victimKeys)) = rest :=
      filter_eq_self.2 fun key hkey => decide_eq_true fun hmem =>
        (nodup_append.1 hnodup).2.2 key hmem key hkey rfl
    rw [hevicted.rankedKeys, ← hrest, filter_append, hself, hother, nil_append]

/-- A round that the objects do not suffice for ends the process. -/
theorem WellFormed.round_eq_none (h : e.WellFormed) (hsuffice : ¬ e.ObjectsSuffice) :
    e.round order view () = none := by
  obtain ⟨u, w, hsizes⟩ := h.sound
  have hnone := hsizes.getLocalCacheVictimKeys_eq_none (Nat.lt_of_not_le hsuffice)
  simp only [round, evictLocalEdgeCache, hnone, Option.bind_eq_bind, Option.bind_none,
    Option.bind_fun_none]

/-! ## The loop -/

theorem lookup_addVictims (totalVictims victims : UnorderedMap Key Value) (key : Key) :
    ((addVictims totalVictims victims).lookup key).isSome =
      ((totalVictims.lookup key).isSome || (victims.lookup key).isSome) := by
  rw [addVictims, lookup_foldl_insertNew, Option.isSome_or]
  rfl

/-- One pass of the loop. -/
theorem WellFormed.evictForCapacity_succ (h : e.WellFormed) (fuel : Nat)
    (totalVictims : UnorderedMap Key Value) :
    evictForCapacity order view (fuel + 1) e totalVictims =
      if 0 < e.excessBytes then
        (e.round order view ()).bind fun r =>
          evictForCapacity order view fuel r.1 (addVictims totalVictims r.2)
      else some (e, totalVictims) := by
  obtain ⟨n, hn⟩ := h.exists_size
  have hexcess : e.excessBytes = n - e.getCapacityBytes := by
    rw [excessBytes, hn, Option.getD_some]
  simp only [evictForCapacity, hn, some_bind, hexcess]
  by_cases hle : n ≤ e.getCapacityBytes
  · rw [if_pos hle, if_neg (by omega)]
    rfl
  · have hpos : 0 < n - e.getCapacityBytes := by omega
    rw [if_neg hle, if_pos hpos]
    simp only [round, hexcess, require_of hpos, Option.bind_eq_bind, Option.bind_some]

/-- The rounds of an eviction. -/
abbrev Rounds (order : HashOrder) (view : CooperationView) (s : CoveredEdge)
    (tr : List (Unit × UnorderedMap Key Value)) (t : CoveredEdge) : Prop :=
  Runs (round order view) anyAction s tr t

/-- The eviction ends within the capacity; its victims are the objects that the edge lost, and each
of its rounds took the shortest prefix of the ranking that had the bytes in excess. -/
structure Succeeds (order : HashOrder) (view : CooperationView) (s : CoveredEdge) : Prop where
  ends : ∃ fuel t victims usedBytes,
    evictForCapacity order view fuel s ∅ = some (t, victims) ∧
      t.getSizeForCapacity = some usedBytes ∧ usedBytes ≤ s.getCapacityBytes ∧
      ∀ key, (victims.lookup key).isSome = true ↔
        s.localCache.isLocalCached key = true ∧ t.localCache.isLocalCached key = false
  rounds : ∀ tr t t' victims, Rounds order view s tr t →
    t.round order view () = some (t', victims) →
    t.localCache.rankedKeys = t.victimKeys ++ t'.localCache.rankedKeys ∧ Holds victims t.victimKeys

/-- A round that does not end the process is as it should be. -/
theorem WellFormed.roundOf (h : e.WellFormed) (horder : ∀ l, (order l).Perm l)
    {victims : UnorderedMap Key Value} (hround : e.round order view () = some (e', victims)) :
    RoundOf e e' victims := by
  have hsuffice : e.ObjectsSuffice := by
    by_contra hnot
    rw [h.round_eq_none hnot] at hround
    cases hround
  have hexcess : 0 < e.excessBytes := by
    simp only [round, require_bind_iff] at hround
    exact hround.1
  obtain ⟨e₁, victims₁, hone, hof⟩ := h.exists_round view horder hexcess hsuffice
  rw [hone] at hround
  cases hround
  exact hof

variable {s t : CoveredEdge} {tr : List (Unit × UnorderedMap Key Value)}

theorem WellFormed.of_rounds
    (h : s.WellFormed) (horder : ∀ l, (order l).Perm l) (hrounds : Rounds order view s tr t) :
    t.WellFormed :=
  hrounds.invariant h fun ht _ hround => (ht.roundOf horder hround).wellFormed

/-- If the objects suffice for every round that starts, the loop ends within the capacity. -/
theorem WellFormed.exists_evictForCapacity (h : s.WellFormed) (horder : ∀ l, (order l).Perm l)
    (hsuffice : ∀ tr t, Rounds order view s tr t → t.ObjectsSuffice)
    (totalVictims : UnorderedMap Key Value) :
    ∃ fuel t victims, evictForCapacity order view fuel s totalVictims = some (t, victims) ∧
      t.WellFormed ∧ t.excessBytes = 0 ∧ t.getCapacityBytes = s.getCapacityBytes ∧
      t.localCache.rankedKeys <:+ s.localCache.rankedKeys ∧
      ∀ key, (victims.lookup key).isSome = true ↔ (totalVictims.lookup key).isSome = true ∨
        (key ∈ s.localCache.rankedKeys ∧ key ∉ t.localCache.rankedKeys) := by
  -- every round takes at least one key, so the number of keys bounds the rounds
  induction hlength : s.localCache.rankedKeys.length using Nat.strong_induction_on
    generalizing s totalVictims with
  | _ n ih =>
    by_cases hexcess : 0 < s.excessBytes
    · obtain ⟨s', victims₁, hround, hof⟩ := h.exists_round view horder hexcess (hsuffice [] s .nil)
      have hne := victimKeys_ne_nil hexcess (hsuffice [] s .nil)
      have hshorter : s'.localCache.rankedKeys.length < n := by
        have hadd := congrArg length hof.rankedKeys
        rw [length_append, hlength] at hadd
        have hpos := length_pos_iff.2 hne
        omega
      have hrest : ∀ tr t, Rounds order view s' tr t → t.ObjectsSuffice := by
        intro tr t hrounds
        have hfirst : Rounds order view s [((), victims₁)] s' := .cons .nil trivial hround
        exact hsuffice _ t (hfirst.trans hrounds)
      obtain ⟨fuel, t, victims, hloop, hwf, hzero, hcapacity, hsuffix, hvictims⟩ :=
        ih _ hshorter hof.wellFormed hrest (addVictims totalVictims victims₁) rfl
      refine ⟨fuel + 1, t, victims, ?_, hwf, hzero, hcapacity.trans hof.capacityBytes, ?_,
        fun key => ?_⟩
      · rw [h.evictForCapacity_succ, if_pos hexcess, hround, Option.bind_some]
        exact hloop
      · rw [hof.rankedKeys]
        exact hsuffix.trans (suffix_append _ _)
      · have hnodup := h.nodup_rankedKeys
        rw [hof.rankedKeys, nodup_append] at hnodup
        have hmem : key ∈ t.localCache.rankedKeys → key ∈ s'.localCache.rankedKeys :=
          fun hkey => hsuffix.subset hkey
        have hdisjoint : key ∈ s.victimKeys → key ∉ s'.localCache.rankedKeys :=
          fun hkey hother => hnodup.2.2 key hkey key hother rfl
        rw [hvictims, lookup_addVictims, hof.holds, hof.rankedKeys, Bool.or_eq_true,
          decide_eq_true_eq, mem_append]
        tauto
    · refine ⟨1, s, totalVictims, ?_, h, by omega, rfl, suffix_refl _, fun key => ?_⟩
      · rw [h.evictForCapacity_succ, if_neg hexcess]
      · refine ⟨.inl, ?_⟩
        rintro (hold | ⟨hkey, hnot⟩)
        · exact hold
        · exact absurd hkey hnot

/-- A loop that ends and has bytes in excess goes on with a round. -/
theorem WellFormed.exists_next (h : e.WellFormed) (hexcess : 0 < e.excessBytes) {fuel : Nat}
    {totalVictims : UnorderedMap Key Value} {r : CoveredEdge × UnorderedMap Key Value}
    (hloop : evictForCapacity order view fuel e totalVictims = some r) :
    ∃ e' victims fuel', e.round order view () = some (e', victims) ∧
      evictForCapacity order view fuel' e' (addVictims totalVictims victims) = some r := by
  cases fuel with
  | zero => cases hloop
  | succ fuel =>
    rw [h.evictForCapacity_succ, if_pos hexcess, Option.bind_eq_some_iff] at hloop
    obtain ⟨⟨e', victims⟩, hround, hrest⟩ := hloop
    exact ⟨e', victims, fuel, hround, hrest⟩

/-- A loop that ends had enough objects in every round. -/
theorem WellFormed.objectsSuffice_of_ends (h : s.WellFormed) (horder : ∀ l, (order l).Perm l)
    (hends : ∃ fuel totalVictims r, evictForCapacity order view fuel s totalVictims = some r)
    (hrounds : Rounds order view s tr t) : t.ObjectsSuffice := by
  -- the loop passes through every edge that the rounds reach
  have hpasses : t.WellFormed ∧
      ∃ fuel totalVictims r, evictForCapacity order view fuel t totalVictims = some r := by
    refine hrounds.invariant (P := fun t => t.WellFormed ∧ ∃ fuel totalVictims r,
      evictForCapacity order view fuel t totalVictims = some r) ⟨h, hends⟩ ?_
    intro e _ e' victims ⟨he, fuel, totalVictims, r, hloop⟩ _ hround
    have hexcess : 0 < e.excessBytes := by
      simp only [round, require_bind_iff] at hround
      exact hround.1
    obtain ⟨e₁, victims₁, fuel₁, hone, hrest⟩ := he.exists_next hexcess hloop
    rw [hone] at hround
    cases hround
    exact ⟨(he.roundOf horder hone).wellFormed, fuel₁, _, r, hrest⟩
  obtain ⟨ht, fuel, totalVictims, r, hloop⟩ := hpasses
  by_contra hnot
  have hexcess : 0 < t.excessBytes :=
    Nat.lt_of_le_of_lt (Nat.zero_le _) (Nat.lt_of_not_le hnot)
  obtain ⟨e₁, victims₁, fuel₁, hone, -⟩ := ht.exists_next hexcess hloop
  rw [ht.round_eq_none hnot] at hone
  cases hone

end CoveredEdge

open CoveredEdge

/-- **When an eviction succeeds.** From a well-formed edge the eviction succeeds iff in every edge
that its rounds reach all objects together have the bytes in excess. -/
theorem evictForCapacity_iff {s : CoveredEdge} (order : HashOrder) (view : CooperationView)
    (horder : ∀ l, (order l).Perm l) (h : s.WellFormed) :
    Succeeds order view s ↔ ∀ tr t, Rounds order view s tr t → t.ObjectsSuffice := by
  constructor
  · intro hsucceeds tr t hrounds
    obtain ⟨fuel, t', victims, -, hloop, -⟩ := hsucceeds.ends
    exact h.objectsSuffice_of_ends horder ⟨fuel, ∅, _, hloop⟩ hrounds
  · intro hsuffice
    obtain ⟨fuel, t, victims, hloop, ht, hzero, hcapacity, -, hvictims⟩ :=
      h.exists_evictForCapacity horder hsuffice ∅
    obtain ⟨usedBytes, hused⟩ := ht.exists_size
    refine ⟨⟨fuel, t, victims, usedBytes, hloop, hused, ?_, fun key => ?_⟩, ?_⟩
    · rw [excessBytes, hused, Option.getD_some, hcapacity] at hzero
      omega
    · rw [hvictims, AList.lookup_empty, h.mem_rankedKeys, ht.mem_rankedKeys, Bool.not_eq_true]
      exact or_iff_right Bool.false_ne_true
    · intro tr t t' victims hrounds hround
      have hof := (h.of_rounds horder hrounds).roundOf horder hround
      exact ⟨hof.rankedKeys, hof.holds⟩

/-! ## Runs -/

/-- The only edge is the beacon of every key. -/
def soleEdgeView : CooperationView := ⟨fun _ => 0, fun _ => []⟩

/-- An edge with one object, before it tells its tracker. -/
def edgeWith (c : LocalCache) : CoveredEdge where
  localCache := c
  validityMap := ValidityMap.validateFlagForKey {} (LocalCache.byteKey 7)
  victimTracker := .create 0 1 1 3

/-- The edge has admitted an object with two bytes. -/
def oneObject (capacityBytes : Nat) : Option CoveredEdge := do
  let (c, _) ← (LocalCache.empty capacityBytes 1000 1000).admitLocalCache LocalCache.halfEdge
    (LocalCache.byteKey 7) (Value.ofSize 1) false
  (edgeWith c).updateCacheManagerForLocalSyncedVictims soleEdgeView

theorem wellFormed_oneObject {capacityBytes : Nat} {e : CoveredEdge} (hcapacity : 2 < capacityBytes)
    (h : oneObject capacityBytes = some e) : e.WellFormed := by
  simp only [oneObject, bind_eq_some_iff] at h
  obtain ⟨⟨c, isSuccessful⟩, hadmitted, hupdate⟩ := h
  have hsize : objectSize (byteKey 7) (Value.ofSize 1) = 2 := by decide
  have hvalid : (empty capacityBytes 1000 1000).isValidObjsize (byteKey 7)
      (Value.ofSize 1) = true := by
    rw [isValidObjsize, hsize]
    exact decide_eq_true hcapacity
  have hstep : (empty capacityBytes 1000 1000).step (.admitLocalCache halfEdge
      (byteKey 7) (Value.ofSize 1) false) = some (c, .admitted isSuccessful) := by
    rw [LocalCache.step, hadmitted, Option.map_some]
  have hmeets : (empty capacityBytes 1000 1000).Meets (.admitLocalCache halfEdge
      (byteKey 7) (Value.ofSize 1) false) := by
    refine ⟨hvalid, fun _ => ⟨⟨by decide, by decide⟩, ?_⟩⟩
    show 0 + pairSize (byteKey 7) (Value.ofSize 1) < uint64Limit
    decide
  have hsound : c.Sound := sound_of_runs (.cons .nil hmeets hstep)
  have hflags : ∀ key, c.isLocalCached key = true →
      (edgeWith c).validityMap.isExist key = true := by
    intro key hkey
    have hfind : (edgeWith c).validityMap.find key =
        if key = byteKey 7 then some ⟨true⟩ else none := by
      show (ValidityMap.validateFlagForKey {} (byteKey 7)).find key = _
      rw [ValidityMap.find_validate, Function.update_apply, find_empty]
    have hlookup : (empty capacityBytes 1000 1000).coveredCache.lookup
        (byteKey 7) = none := rfl
    simp only [admitLocalCache, require_of hvalid, hlookup, bind_eq_some_iff, some_bind,
      pure_eq_some_iff, Prod.mk.injEq] at hadmitted
    obtain ⟨kvbytes, -, cached, -, uncached, -, lru, -, rfl, -⟩ := hadmitted
    rw [isLocalCached, lookup_insert_eq] at hkey
    rw [isExist, hfind]
    split at hkey
    · next heq => rw [if_pos heq, Option.isSome_some]
    · cases hkey
  have hbytes : (edgeWith c).edgeCacheSize.isSome = true := by
    simp only [updateCacheManagerForLocalSyncedVictims, getCacheMarginBytes,
      CoveredEdge.getSizeForCapacity, bind_eq_some_iff] at hupdate
    obtain ⟨-, ⟨-, ⟨n, hn, -⟩, -⟩, -⟩ := hupdate
    rw [hn]
    rfl
  have htracker : (edgeWith c).victimTracker.CompleteMetadata :=
    fun _ v hv => absurd hv not_mem_nil
  obtain ⟨e', he', hevicted⟩ :=
    WellFormed.exists_updateCacheManager ⟨hsound, hflags, hbytes, htracker⟩ soleEdgeView
  rw [he'] at hupdate
  cases hupdate
  exact hevicted.wellFormed

/-- The eviction of the only object would bring the edge down to its capacity, but its two bytes are
fewer than the fifteen in excess, and the process ends. -/
theorem eviction_exits :
    ∃ e, oneObject 100 = some e ∧ e.WellFormed ∧ e.excessBytes = 15 ∧
      ((e.evictKeys id soleEdgeView e.localCache.rankedKeys).any fun r =>
        decide (r.1.getSizeForCapacity = some 35 ∧ 35 ≤ e.getCapacityBytes)) = true ∧
      (∀ fuel, CoveredEdge.evictForCapacity id soleEdgeView fuel e ∅ = none) ∧
      ¬ Succeeds id soleEdgeView e := by
  have hany : (oneObject 100).any (fun e => decide (e.excessBytes = 15 ∧
      e.localCache.totalObjectBytes = 2) &&
      (e.evictKeys id soleEdgeView e.localCache.rankedKeys).any fun r =>
        decide (r.1.getSizeForCapacity = some 35 ∧ 35 ≤ e.getCapacityBytes)) = true := by
    decide +kernel
  obtain ⟨e, he, hp⟩ := (Option.any_eq_true ..).1 hany
  rw [Bool.and_eq_true, decide_eq_true_eq] at hp
  obtain ⟨⟨hexcess, htotal⟩, hfits⟩ := hp
  have hwf := wellFormed_oneObject (by decide) he
  have hnot : ¬ e.ObjectsSuffice := by
    rw [ObjectsSuffice, hexcess, htotal]
    decide
  have hexits : ∀ fuel, CoveredEdge.evictForCapacity id soleEdgeView fuel e ∅ = none := by
    intro fuel
    cases fuel with
    | zero => rfl
    | succ fuel =>
      rw [hwf.evictForCapacity_succ, if_pos (by omega), hwf.round_eq_none hnot, Option.bind_none]
  refine ⟨e, he, hwf, hexcess, hfits, hexits, fun hsucceeds => ?_⟩
  obtain ⟨fuel, t, victims, -, hloop, -⟩ := hsucceeds.ends
  rw [hexits fuel] at hloop
  cases hloop

/-- With two bytes in excess the object is evicted. -/
theorem eviction_succeeds :
    ∃ e, oneObject 113 = some e ∧ e.excessBytes = 2 ∧ Succeeds id soleEdgeView e := by
  have hany : (oneObject 113).any (fun e => decide (e.excessBytes = 2 ∧
      e.localCache.totalObjectBytes = 2) &&
      (e.round id soleEdgeView ()).any fun r => decide (r.1.excessBytes = 0)) = true := by
    decide +kernel
  obtain ⟨e, he, hp⟩ := (Option.any_eq_true ..).1 hany
  rw [Bool.and_eq_true, decide_eq_true_eq] at hp
  obtain ⟨⟨hexcess, htotal⟩, hround⟩ := hp
  obtain ⟨⟨e', victims⟩, hround, hzero⟩ := (Option.any_eq_true ..).1 hround
  have hzero : e'.excessBytes = 0 := of_decide_eq_true hzero
  refine ⟨e, he, hexcess, ?_⟩
  refine (evictForCapacity_iff id soleEdgeView (fun l => .refl l)
    (wellFormed_oneObject (by decide) he)).2 fun tr t hrounds => ?_
  -- there is one round only
  have hcases : t = e ∨ t = e' := by
    refine hrounds.invariant (P := fun t => t = e ∨ t = e') (.inl rfl) ?_
    rintro t _ t' _ (rfl | rfl) - hstep
    · rw [hround] at hstep
      cases hstep
      exact .inr rfl
    · simp only [CoveredEdge.round, Option.bind_eq_bind, require_bind_eq_some_iff] at hstep
      exact absurd hzero (Nat.ne_of_gt hstep.1)
  rcases hcases with rfl | rfl
  · rw [ObjectsSuffice, hexcess, htotal]
  · rw [ObjectsSuffice, hzero]
    exact Nat.zero_le _

end Covered.Edge.CoveredEviction
