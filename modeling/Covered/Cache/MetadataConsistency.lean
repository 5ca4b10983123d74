import Covered.Cache.MetadataRepresentation

/-!
# Consistency of the metadata of the tracked keys

In every run of the container its four parts hold the same keys, each once, the counted sizes are
those of the keys, a stored group counts its keys, and the LRU list has the keys in the order of
their last touch (`consistent_of_runs`). No group has more keys than the maximum as long as every
new group gets a group id under which no group is stored.

That is not always so: group ids are counted with 32 bits and start again at `0`, where a key of the
first group may still be tracked, and then the group gets its keys a second time
(`group_exceeds_maximum`).
-/

set_option autoImplicit false

namespace Covered.Cache

open Common Lib Lib.Checked Lib.Execution Lib.Simulation List KeyLevelMetadata

/-! ## What an operation changes -/

/-- How an operation touches a key. -/
inductive Access where
  | none
  | existing (key : Key)
  | new (key : Key)
deriving DecidableEq

def Access.isNew : Access → Bool
  | .new _ => true
  | _ => false

/-- The key that an operation adds or updates without its value. -/
def MetadataOperation.access : MetadataOperation → Access
  | .addForNewKey _ key _ _ _ _ _ => .new key
  | .updateNoValueStatsForExistingKey _ key _ _ => .existing key
  | .updateNoValueStatsForExistingKeyP2p _ key _ _ _ => .existing key
  | .updateValueStatsForExistingKey _ _ _ _ => .none
  | .removeForExistingKey _ => .none

namespace LruRecords

variable {T : Type} [KeyLevelMetadata T] {v v' w : LruRecords T} {key : Key} {t : T}

/-- `v'` has some of the keys of `v`, in the same order and in the same groups. -/
structure Fewer (v v' : LruRecords T) : Prop where
  keys : ∃ p : Key → Bool, v'.keys = v.keys.filter p
  count_le : ∀ groupId, v'.groupIds.count groupId ≤ v.groupIds.count groupId
  curGroupId : v'.curGroupId = v.curGroupId
  curGroupKeycnt : v'.curGroupKeycnt = v.curGroupKeycnt

/-- What an operation does to the keys and their groups. -/
inductive Change (v v' : LruRecords T) : Access → Prop where
  | fewer : Fewer v v' → Change v v' .none
  | touched (key : Key) : key ∈ v.keys →
    v'.keys = key :: v.keys.filter (fun k => decide (k ≠ key)) →
      v'.groupIds.Perm v.groupIds → v'.curGroupId = v.curGroupId →
      v'.curGroupKeycnt = v.curGroupKeycnt → Change v v' (.existing key)
  | added (key : Key) (w : LruRecords T) : key ∉ v.keys → w.keys = key :: v.keys →
      w.groupIds = w.curGroupId :: v.groupIds →
      (w.curGroupId, w.curGroupKeycnt) = assignGroup v.curGroupId v.curGroupKeycnt → Fewer w v' →
      Change v v' (.new key)

theorem Fewer.refl (v : LruRecords T) : Fewer v v :=
  ⟨⟨fun _ => true, (filter_true _).symm⟩, fun _ => Nat.le_refl _, rfl, rfl⟩

theorem Fewer.trans (h : Fewer v w) (h' : Fewer w v') : Fewer v v' where
  keys := by
    obtain ⟨p, hp⟩ := h.keys
    obtain ⟨q, hq⟩ := h'.keys
    exact ⟨fun k => p k && q k, by rw [hq, hp, filter_filter]; simp only [Bool.and_comm]⟩
  count_le groupId := (h'.count_le groupId).trans (h.count_le groupId)
  curGroupId := h'.curGroupId.trans h.curGroupId
  curGroupKeycnt := h'.curGroupKeycnt.trans h.curGroupKeycnt

theorem fewer_removeKey (h : v.record key = some t) : Fewer v (v.removeKey key) := by
  refine ⟨⟨_, keys_removeKey⟩, fun groupId => ?_, rfl, rfl⟩
  rw [(perm_groupIds_removeKey h).count_eq, count_cons]
  exact Nat.le_add_right _ _

end LruRecords

namespace TrackedKeys

open LruRecords

variable {T : Type} [KeyLevelMetadata T] {v v' w : TrackedKeys T} {key : Key}

theorem fewer_of_remove (h : v.remove key = some v') :
    Fewer v.toLruRecords v'.toLruRecords := by
  obtain ⟨t, hr, h⟩ := bind_eq_some_iff.1 h
  cases h
  exact fewer_removeKey hr

theorem fewer_of_detrackForCapacity {maxBytes fuel : Nat}
    (h : v.detrackForCapacity maxBytes fuel = some v') :
    Fewer v.toLruRecords v'.toLruRecords := by
  induction fuel generalizing v with
  | zero => cases h
  | succ fuel ih =>
    rw [detrackForCapacity] at h
    obtain ⟨size, -, h⟩ := bind_eq_some_iff.1 h
    split at h
    · obtain ⟨pair, -, h⟩ := bind_eq_some_iff.1 h
      obtain ⟨w, hremove, h⟩ := bind_eq_some_iff.1 h
      exact (fewer_of_remove hremove).trans (ih h)
    · cases h
      exact .refl _

theorem fewer_of_afterAddForNewKey {maxBytes : Option Nat}
    (h : v.afterAddForNewKey maxBytes = some v') :
    Fewer v.toLruRecords v'.toLruRecords := by
  cases maxBytes with
  | none =>
    cases h
    exact .refl _
  | some maxBytes => exact fewer_of_detrackForCapacity h

variable {edge : EdgeContext}

/-- The popularity and the reward of a key say nothing about the keys and their groups. -/
theorem updatePopularityAndReward_spec {t : T} (hr : v.record key = some t)
    (h : v.updatePopularityAndReward edge key t = some v') :
    v'.keys = v.keys ∧ v'.groupIds = v.groupIds ∧ v'.curGroupId = v.curGroupId ∧
      v'.curGroupKeycnt = v.curGroupKeycnt := by
  obtain ⟨t', ht, h⟩ := bind_eq_some_iff.1 h
  cases h
  exact ⟨keys_setRecord, groupIds_setRecord hr (popularity_keeps ht).1, rfl, rfl⟩

theorem change_of_updateNoValueStats {update : T → Option T} (hkeeps : ∀ t t', update t = some t' →
      getGroupId t' = getGroupId t)
    (h : v.updateNoValueStats edge key update = some v') :
    Change v.toLruRecords v'.toLruRecords (.existing key) := by
  simp only [updateNoValueStats, bind_eq_some_iff] at h
  obtain ⟨t, hr, t', ht, h⟩ := h
  have hset : (v.toLruRecords.setRecord key t').record key = some t' := record_setRecord hr
  have hmoved := record_moveToFront (hset)
  obtain ⟨hkeys, hgroups, hid, hcnt⟩ := updatePopularityAndReward_spec hmoved h
  refine .touched key (mem_keys_of_record hr) ?_ ?_ hid hcnt
  · rw [hkeys, toLruRecords_moveToFront, toLruRecords_setRecord, keys_moveToFront hset,
      keys_setRecord]
  · rw [hgroups, ← groupIds_setRecord hr (hkeeps t t' ht)]
    exact groupIds_moveToFront _ key

theorem change_of_updateInPlace {update : T → Option T} (hkeeps : ∀ t t', update t = some t' →
      getGroupId t' = getGroupId t)
    (h : v.updateInPlace edge key update = some v') :
    Change v.toLruRecords v'.toLruRecords .none := by
  simp only [updateInPlace, bind_eq_some_iff] at h
  obtain ⟨t, hr, t', ht, h⟩ := h
  obtain ⟨hkeys, hgroups, hid, hcnt⟩ := updatePopularityAndReward_spec (record_setRecord hr) h
  rw [toLruRecords_setRecord, keys_setRecord] at hkeys
  rw [toLruRecords_setRecord, groupIds_setRecord hr (hkeeps t t' ht)] at hgroups
  exact .fewer ⟨⟨fun _ => true, hkeys.trans (filter_true _).symm⟩,
    fun groupId => by rw [hgroups], hid, hcnt⟩

theorem change_of_addForNewKey {maxBytes : Option Nat} {value : Value}
    {isGlobalCached isNeighborCached : Bool} {added addedRedirected : Nat}
    (h : v.addForNewKey maxBytes edge key value isGlobalCached isNeighborCached added
      addedRedirected = some v') : Change v.toLruRecords v'.toLruRecords (.new key) := by
  obtain ⟨w, hadd, h⟩ := bind_eq_some_iff.1 h
  rw [addKey] at hadd
  split at hadd
  · next hnew =>
    obtain ⟨t, ht, hadd⟩ := bind_eq_some_iff.1 hadd
    cases hadd
    have hgroup := (newRecord_spec ht).1
    refine .added key _ hnew.1 rfl ?_ rfl (fewer_of_afterAddForNewKey h)
    rw [toLruRecords_insertKey, groupIds_insertKey, hgroup]
    rfl
  · cases hadd

end TrackedKeys

theorem TrackedKeys.change_of_step {T : Type} [KeyLevelMetadata T] {v v' : TrackedKeys T}
    {maxBytes : Option Nat} {o : MetadataOperation} (h : v.step maxBytes o = some (v', ())) :
    LruRecords.Change v.toLruRecords v'.toLruRecords o.access := by
  cases o with
  | addForNewKey edge key value isGlobalCached isNeighborCached added addedRedirected =>
    obtain ⟨w, hw, heq⟩ := Option.map_eq_some_iff.1 h
    cases heq
    exact change_of_addForNewKey hw
  | updateNoValueStatsForExistingKey edge key isRedirected isGlobalCached =>
    obtain ⟨w, hw, heq⟩ := Option.map_eq_some_iff.1 h
    cases heq
    exact change_of_updateNoValueStats (fun t t' ht => (noValue_keeps ht).1) hw
  | updateNoValueStatsForExistingKeyP2p edge key isRedirected isGlobalCached redirectedReward =>
    obtain ⟨w, hw, heq⟩ := Option.map_eq_some_iff.1 h
    cases heq
    obtain ⟨-, hw⟩ := require_bind_iff.1 hw
    exact change_of_updateNoValueStats (fun t t' ht => (noValue_keeps ht).1) hw
  | updateValueStatsForExistingKey edge key value originalValue =>
    obtain ⟨w, hw, heq⟩ := Option.map_eq_some_iff.1 h
    cases heq
    exact change_of_updateInPlace (fun t t' ht => (value_spec ht).1) hw
  | removeForExistingKey key =>
    obtain ⟨w, hw, heq⟩ := Option.map_eq_some_iff.1 h
    cases heq
    exact .fewer (fewer_of_remove hw)

/-! ## The sizes of the groups -/

namespace LruRecords

variable {T : Type} [KeyLevelMetadata T] {v v' : LruRecords T} {a : Access}

/-- No group has more keys than the maximum, nor the current one more than it was given. -/
structure GroupBound (v : LruRecords T) : Prop where
  keycnt_le : v.curGroupKeycnt ≤ coveredPergroupMaxkeycnt
  current_le : v.groupIds.count v.curGroupId ≤ v.curGroupKeycnt
  count_le : ∀ groupId, v.groupIds.count groupId ≤ coveredPergroupMaxkeycnt

theorem GroupBound.empty : GroupBound (LruRecords.empty : LruRecords T) :=
  ⟨Nat.zero_le _, Nat.le_refl _, fun _ => Nat.zero_le _⟩

theorem GroupBound.fewer (h : GroupBound v) (hfewer : Fewer v v') : GroupBound v' where
  keycnt_le := hfewer.curGroupKeycnt ▸ h.keycnt_le
  current_le := by
    rw [hfewer.curGroupId, hfewer.curGroupKeycnt]
    exact (hfewer.count_le _).trans h.current_le
  count_le groupId := (hfewer.count_le groupId).trans (h.count_le groupId)

/-- A new key goes to the current group while that may have more keys, otherwise to a new one. -/
theorem GroupBound.added {w : LruRecords T} (h : GroupBound v)
    (hgroups : w.groupIds = w.curGroupId :: v.groupIds)
    (hassign : (w.curGroupId, w.curGroupKeycnt) = assignGroup v.curGroupId v.curGroupKeycnt)
    (hfree : v.curGroupKeycnt + 1 > coveredPergroupMaxkeycnt →
      v.groupIds.count (assignGroup v.curGroupId v.curGroupKeycnt).1 = 0) : GroupBound w := by
  have hid : w.curGroupId = (assignGroup v.curGroupId v.curGroupKeycnt).1 :=
    congrArg Prod.fst hassign
  have hcnt : w.curGroupKeycnt = (assignGroup v.curGroupId v.curGroupKeycnt).2 :=
    congrArg Prod.snd hassign
  have hcurrent : w.curGroupKeycnt ≤ coveredPergroupMaxkeycnt ∧
      v.groupIds.count w.curGroupId + 1 ≤ w.curGroupKeycnt := by
    rw [assignGroup] at hid hcnt hfree
    split at hid
    · next hfull =>
      rw [if_pos hfull] at hcnt hfree
      have hzero := hfree hfull
      rw [← hid] at hzero
      rw [hcnt, hzero]
      exact ⟨(by decide : 1 ≤ coveredPergroupMaxkeycnt), Nat.le_refl _⟩
    · next hroom =>
      rw [if_neg hroom] at hcnt
      rw [hid, hcnt]
      exact ⟨Nat.not_lt.1 hroom, Nat.succ_le_succ h.current_le⟩
  refine ⟨hcurrent.1, ?_, fun groupId => ?_⟩
  · rw [hgroups, count_cons_self]
    exact hcurrent.2
  · rw [hgroups, count_cons]
    split
    · next heq =>
      rw [← eq_of_beq heq]
      exact hcurrent.2.trans hcurrent.1
    · exact h.count_le groupId

theorem GroupBound.change (h : GroupBound v) (hchange : Change v v' a)
    (hfree : a.isNew = true → v.curGroupKeycnt + 1 > coveredPergroupMaxkeycnt →
      v.groupIds.count (assignGroup v.curGroupId v.curGroupKeycnt).1 = 0) : GroupBound v' := by
  cases hchange with
  | fewer hfewer => exact h.fewer hfewer
  | touched key hmem hkeys hgroups hid hcnt =>
    refine ⟨hcnt ▸ h.keycnt_le, ?_, fun groupId => ?_⟩
    · rw [hid, hcnt, hgroups.count_eq]
      exact h.current_le
    · rw [hgroups.count_eq]
      exact h.count_le groupId
  | added key w hnew hkeys hgroups hassign hfewer =>
    exact (h.added hgroups hassign (hfree rfl)).fewer hfewer

end LruRecords

/-! ## The order of the last touches -/

/-- The keys in the order of their last touch after one more access. -/
def Access.touch : Access → List Key → List Key
  | .none, keys => keys
  | .existing key, keys => key :: keys.filter fun k => decide (k ≠ key)
  | .new key, keys => key :: keys.filter fun k => decide (k ≠ key)

/-- The keys that the operations of a run touched, in the order of their last touch, the latest
first. -/
def recency : List (MetadataOperation × Unit) → List Key
  | [] => []
  | (o, _) :: rest => o.access.touch (recency rest)

namespace LruRecords

variable {T : Type} [KeyLevelMetadata T] {v v' w : LruRecords T} {a : Access} {keys : List Key}

theorem filter_mem_fewer (hfewer : Fewer v v')
    (h : v.keys = keys.filter fun k => decide (k ∈ v.keys)) :
    v'.keys = keys.filter fun k => decide (k ∈ v'.keys) := by
  obtain ⟨p, hp⟩ := hfewer.keys
  conv_lhs => rw [hp, h, filter_filter]
  apply filter_congr
  intro k _
  rw [hp, Bool.eq_iff_iff, Bool.and_eq_true, decide_eq_true_eq, decide_eq_true_eq, mem_filter,
    and_comm]

/-- The LRU list has the keys in the order of their last touch: one step. -/
theorem filter_mem_change (hchange : Change v v' a)
    (h : v.keys = keys.filter fun k => decide (k ∈ v.keys)) :
    v'.keys = (a.touch keys).filter fun k => decide (k ∈ v'.keys) := by
  cases hchange with
  | fewer hfewer => exact filter_mem_fewer hfewer h
  | touched key hmem hkeys _ _ _ =>
    rw [Access.touch, filter_cons, filter_filter, hkeys, if_pos (by simp)]
    congr 1
    conv_lhs => rw [h, filter_filter]
    apply filter_congr
    intro k _
    by_cases hk : k = key
    · simp [hk]
    · simp [hk, mem_filter]
  | added key w hnew hkeys _ _ hfewer =>
    have hw : w.keys = (Access.touch (.new key) keys).filter fun k => decide (k ∈ w.keys) := by
      rw [Access.touch, filter_cons, filter_filter, hkeys, if_pos (by simp)]
      congr 1
      conv_lhs => rw [h]
      apply filter_congr
      intro k _
      by_cases hk : k = key
      · simp [hk, hnew]
      · simp [hk]
    exact filter_mem_fewer hfewer hw

end LruRecords

/-! ## Runs of the container -/

section Runs

variable {T : Type} [KeyLevelMetadata T]

/-- The number of keys that carry a group id. -/
def groupKeycnt (s : CacheMetadataBase T) (groupId : Nat) : Nat :=
  s.records.perkeyMetadataList.toList.countP fun pair =>
    KeyLevelMetadata.getGroupId pair.2 == groupId

/-- The four parts hold the same keys, each once, and the counters are those of the keys. -/
structure Consistent (s : CacheMetadataBase T) : Prop where
  nodup_list : KeyedList.NodupKeys Prod.fst s.records.perkeyMetadataList.toList
  nodup_multimap : KeyedList.NodupKeys Prod.snd s.sortedRewardMultimap.toList
  mem_list : ∀ key, key ∈ s.records.perkeyMetadataList.toList.map Prod.fst ↔ s.isKeyExist key = true
  mem_multimap : ∀ key,
    key ∈ s.sortedRewardMultimap.toList.map Prod.snd ↔ s.isKeyExist key = true
  places : ∀ key entry, s.perkeyLookupTable.lookup key = some entry →
    ∃ t r, Denotes s key entry t r
  ascending : SortBy.Ascending Prod.fst s.sortedRewardMultimap.toList
  listBytes : s.records.perkeyMetadataListKeySize =
    bytesOfKeys (s.records.perkeyMetadataList.toList.map Prod.fst)
  multimapBytes : s.sortedRewardMultimapKeySize =
    bytesOfKeys (s.sortedRewardMultimap.toList.map Prod.snd)
  tableBytes : s.perkeyLookupTableKeySize = bytesOfKeys s.perkeyLookupTable.keys
  objectCnt : ∀ groupId group, s.records.pergroupMetadataMap.lookup groupId = some group →
    0 < group.objectCnt ∧ group.objectCnt = groupKeycnt s groupId
  group_stored : ∀ key t, (key, t) ∈ s.records.perkeyMetadataList.toList →
    ∃ group, s.records.pergroupMetadataMap.lookup (KeyLevelMetadata.getGroupId t) = some group

/-- No stored group has more keys than the maximum. -/
def GroupsBounded (s : CacheMetadataBase T) : Prop :=
  ∀ groupId group, s.records.pergroupMetadataMap.lookup groupId = some group →
    group.objectCnt ≤ coveredPergroupMaxkeycnt

/-- The LRU list has the keys in the order of their last touch; in particular the key that was
touched last is at its head, unless the key is not tracked any more. -/
structure LatestFirst (tr : List (MetadataOperation × Unit)) (s : CacheMetadataBase T) : Prop where
  order : s.records.perkeyMetadataList.toList.map Prod.fst = (recency tr).filter s.isKeyExist
  head : ∀ key, (recency tr).head? = some key → s.isKeyExist key = true →
    (s.records.perkeyMetadataList.toList.map Prod.fst).head? = some key

variable {s : CacheMetadataBase T} {v : TrackedKeys T}

theorem groupKeycnt_of_represents (h : Represents s v) (groupId : Nat) :
    groupKeycnt s groupId = v.groupIds.count groupId := by
  rw [groupKeycnt, h.records.list, LruRecords.groupIds, count, countP_map]
  rfl

theorem consistent_of_represents (h : Represents s v) : Consistent s where
  nodup_list := h.records.nodup_list
  nodup_multimap := h.nodup_multimap
  mem_list key := by
    rw [h.records.list]
    exact (h.exists_iff key).symm
  mem_multimap key := by
    rw [h.multimap, v.perm.mem_iff]
    exact (h.exists_iff key).symm
  places := h.places
  ascending := h.multimap ▸ v.ascending
  listBytes := by
    rw [h.records.list]
    exact h.records.listBytes
  multimapBytes := by
    rw [h.multimap, bytesOfKeys_perm v.perm]
    exact h.rewardBytes
  tableBytes := by
    rw [bytesOfKeys_perm (UnorderedMap.perm_keys _ v.nodup h.exists_iff)]
    exact h.tableBytes
  objectCnt groupId group hgroup := by
    rw [h.records.group, LruRecords.group] at hgroup
    split at hgroup
    · cases hgroup
    · next hne =>
      cases hgroup
      exact ⟨Nat.pos_of_ne_zero hne, (groupKeycnt_of_represents h groupId).symm⟩
  group_stored key t hmem := by
    obtain ⟨group, hgroup, -⟩ := h.records.exists_group
      (LruRecords.record_eq_some_iff.2 (h.records.list ▸ hmem))
    exact ⟨group, hgroup⟩

/-- A key that opens a new group finds no group under the group id that it gets. -/
def CacheMetadataBase.Meets (s : CacheMetadataBase T) (o : MetadataOperation) : Prop :=
  o.access.isNew = true → s.records.curGroupKeycnt + 1 > coveredPergroupMaxkeycnt →
    s.records.pergroupMetadataMap.lookup
      (assignGroup s.records.curGroupId s.records.curGroupKeycnt).1 = none

instance CacheMetadataBase.decidableMeets (s : CacheMetadataBase T) (o : MetadataOperation) :
    Decidable (s.Meets o) :=
  inferInstanceAs (Decidable (_ → _))

/-- In every run the container is consistent and the LRU list follows the touches. -/
theorem latestFirst_of_runs {maxBytes : Option Nat} {tr : List (MetadataOperation × Unit)}
    (h : Runs (CacheMetadataBase.step maxBytes) anyAction
      (CacheMetadataBase.empty : CacheMetadataBase T) tr s) : Consistent s ∧ LatestFirst tr s := by
  -- the invariant speaks about the tracked keys that the container represents
  obtain ⟨v, hrep, hkeys⟩ : ∃ v : TrackedKeys T, Represents s v ∧
      v.keys = (recency tr).filter fun k => decide (k ∈ v.keys) := by
    refine h.trace_invariant (P := fun tr s => ∃ v : TrackedKeys T, Represents s v ∧
      v.keys = (recency tr).filter fun k => decide (k ∈ v.keys)) ⟨.empty, .empty, rfl⟩ ?_
    rintro tr s o s' b ⟨v, hrep, hkeys⟩ - hstep
    obtain ⟨⟨v', b'⟩, hstep', hrep', -⟩ := exists_of_rel (hrep.step_simulated maxBytes o) hstep
    exact ⟨v', hrep', LruRecords.filter_mem_change (TrackedKeys.change_of_step hstep') hkeys⟩
  have hexists : s.isKeyExist = fun k => decide (k ∈ v.keys) := by
    funext k
    rw [Bool.eq_iff_iff, decide_eq_true_eq, hrep.exists_iff]
  have horder : s.records.perkeyMetadataList.toList.map Prod.fst =
    (recency tr).filter s.isKeyExist := by
    rw [hrep.records.list, hexists]
    exact hkeys
  refine ⟨consistent_of_represents hrep, horder, fun key hhead hexist => ?_⟩
  obtain ⟨rest, hrest⟩ := List.head?_eq_some_iff.1 hhead
  rw [horder, hrest, List.filter_cons, if_pos hexist, List.head?_cons]

/-- In every run in which no new group gets the id of a stored one, moreover no group exceeds the
maximum. -/
theorem consistent_of_runs {maxBytes : Option Nat} {tr : List (MetadataOperation × Unit)}
    (h : Runs (CacheMetadataBase.step maxBytes) CacheMetadataBase.Meets
      (CacheMetadataBase.empty : CacheMetadataBase T) tr s) : Consistent s ∧ GroupsBounded s ∧
        LatestFirst tr s := by
  obtain ⟨v, hrep, hbound⟩ : ∃ v : TrackedKeys T, Represents s v ∧ v.toLruRecords.GroupBound := by
    refine h.invariant (P := fun s => ∃ v : TrackedKeys T, Represents s v ∧
      v.toLruRecords.GroupBound) ⟨.empty, .empty, .empty⟩ ?_
    rintro s o s' b ⟨v, hrep, hbound⟩ hmeets hstep
    obtain ⟨⟨v', b'⟩, hstep', hrep', -⟩ := exists_of_rel (hrep.step_simulated maxBytes o) hstep
    refine ⟨v', hrep', hbound.change (TrackedKeys.change_of_step hstep') fun hnew hfull => ?_⟩
    have hfree := hmeets hnew (hrep.records.groupKeycnt ▸ hfull)
    rw [hrep.records.group, hrep.records.groupId, hrep.records.groupKeycnt,
      LruRecords.group] at hfree
    by_contra hne
    rw [if_neg hne] at hfree
    cases hfree
  obtain ⟨hconsistent, hlatest⟩ := latestFirst_of_runs (h.mono fun _ _ _ => trivial)
  refine ⟨hconsistent, fun groupId group hgroup => ?_, hlatest⟩
  rw [(hconsistent.objectCnt groupId group hgroup).2, groupKeycnt_of_represents hrep]
  exact hbound.count_le groupId

end Runs

/-- The edge, the values and the keys of the examples. -/
def exampleEdge : EdgeContext := { weights := ⟨2, 1⟩ }

def exampleValue : Value := ⟨false, 3, Bool.false_ne_true.elim⟩

def keyOf (n : Nat) : Key := ⟨[UInt8.ofNat n]⟩

def addition (key : Key) : MetadataOperation :=
  .addForNewKey exampleEdge key exampleValue true false 1 0

/-- Twelve cached keys in two groups, and accesses to some of them. -/
theorem consistent_of_runs_twelve :
    ∃ tr, ∃ s : CacheMetadataBase HeteroKeyLevelMetadata,
      Runs (CacheMetadataBase.step none) CacheMetadataBase.Meets
      CacheMetadataBase.empty tr s ∧ s.records.pergroupMetadataMap.lookup 0 = some ⟨9⟩ ∧
      s.records.pergroupMetadataMap.lookup 1 = some ⟨2⟩ ∧ Consistent s ∧ GroupsBounded s ∧
      LatestFirst tr s := by
  have hexec : (exec (CacheMetadataBase.step (T := HeteroKeyLevelMetadata) none)
      CacheMetadataBase.Meets CacheMetadataBase.empty ((List.range 12).map (addition ∘ keyOf) ++
        [.removeForExistingKey (keyOf 3),
         .updateNoValueStatsForExistingKey exampleEdge (keyOf 5) true true,
         .updateValueStatsForExistingKey exampleEdge (keyOf 6) deletedValue exampleValue])).any
      (fun s => decide (s.records.pergroupMetadataMap.lookup 0 = some ⟨9⟩) &&
        decide (s.records.pergroupMetadataMap.lookup 1 = some ⟨2⟩)) = true := by decide +kernel
  obtain ⟨tr, s, hrun, -, hp⟩ := exists_runs_of_any hexec
  rw [Bool.and_eq_true, decide_eq_true_eq, decide_eq_true_eq] at hp
  exact ⟨tr, s, hrun, hp.1, hp.2, consistent_of_runs hrun⟩

/-! ## Group ids start again -/

section Wrap

/-- Group and key count after `n` additions, from the start of a group on. -/
theorem iterate_assignGroup (n : Nat) :
    (fun g : Nat × Nat => assignGroup g.1 g.2)^[n] (0, 1) =
      (n / coveredPergroupMaxkeycnt % uint32Limit, n % coveredPergroupMaxkeycnt + 1) := by
  induction n with
  | zero => rfl
  | succ n ih =>
    rw [Function.iterate_succ_apply', ih]
    by_cases hfull : n % coveredPergroupMaxkeycnt + 1 + 1 > coveredPergroupMaxkeycnt
    · refine (if_pos hfull).trans ?_
      rw [Prod.mk.injEq]
      simp only [coveredPergroupMaxkeycnt, uint32Limit] at hfull ⊢
      omega
    · refine (if_neg hfull).trans ?_
      rw [Prod.mk.injEq]
      simp only [coveredPergroupMaxkeycnt, uint32Limit] at hfull ⊢
      omega

variable {v : TrackedKeys HeteroKeyLevelMetadata} {key : Key}

/-- A new key can always be tracked as long as the key bytes can be counted. -/
theorem exists_addition (key : Key) (hnew : key ∉ v.keys)
    (hbytes : bytesOfKeys v.keys + key.getKeyLength < uint64Limit)
    (hsize : objectSize key exampleValue ≠ 0) :
    ∃ v' t, v.step none (addition key) = some (v', ()) ∧ v'.lru = (key, t) :: v.lru ∧
      v'.groupIds = v'.curGroupId :: v.groupIds ∧
      (v'.curGroupId, v'.curGroupKeycnt) = assignGroup v.curGroupId v.curGroupKeycnt := by
  have hrecord : ∃ t : HeteroKeyLevelMetadata, LruRecords.newRecord exampleEdge
      (assignGroup v.curGroupId v.curGroupKeycnt).1 key exampleValue true false 1 0 = some t := by
    show ∃ t, HeteroKeyLevelMetadata.calculateAndUpdatePopularity exampleEdge
      { base := { groupId := _, localFrequency := 1, objectSize := objectSize key exampleValue }
        isNeighborCached := false } = some t
    simp only [HeteroKeyLevelMetadata.calculateAndUpdatePopularity,
      KeyLevelMetadataBase.calculateLocalPopularity,
      KeyLevelMetadataBase.calculatePopularity_eq hsize]
    exact ⟨_, rfl⟩
  obtain ⟨t, ht⟩ := hrecord
  refine ⟨v.insertKey key t (calculateReward exampleEdge t) hnew hbytes, t, ?_,
    rfl, ?_, rfl⟩
  · simp only [TrackedKeys.step, addition, TrackedKeys.addForNewKey, TrackedKeys.addKey,
      dif_pos (And.intro hnew hbytes), ht, some_bind, Option.pure_def,
      TrackedKeys.afterAddForNewKey, Option.map_some]
  · rw [TrackedKeys.toLruRecords_insertKey, LruRecords.groupIds_insertKey,
    (LruRecords.newRecord_spec ht).1]
    rfl

/-- A key that is tracked and given up again moves on the groups only. -/
theorem exists_pass (hnew : key ∉ v.keys)
    (hbytes : bytesOfKeys v.keys + key.getKeyLength < uint64Limit)
    (hsize : objectSize key exampleValue ≠ 0) :
    ∃ tr v', Runs (TrackedKeys.step none) anyAction v tr v' ∧ v'.lru = v.lru ∧
      (v'.curGroupId, v'.curGroupKeycnt) = assignGroup v.curGroupId v.curGroupKeycnt := by
  obtain ⟨w, t, hadd, hlru, -, hassign⟩ := exists_addition _ hnew hbytes hsize
  have hrecord : w.record key = some t :=
    LruRecords.record_eq_some_iff.2 (hlru ▸ mem_cons_self)
  have hremove : w.step none (.removeForExistingKey key) = some (w.removeKey key, ()) := by
    simp only [TrackedKeys.step, TrackedKeys.remove, hrecord, some_bind, Option.pure_def,
      Option.map_some]
  refine ⟨_, _, .cons (.cons .nil trivial hadd) trivial hremove, ?_, hassign⟩
  show KeyedList.erase Prod.fst key w.lru = v.lru
  rw [hlru, KeyedList.erase, eraseP_cons, decide_eq_true rfl, cond_true]

/-- Any number of such passes. -/
theorem exists_passes (key : Key) (hnew : key ∉ v.keys)
    (hbytes : bytesOfKeys v.keys + key.getKeyLength < uint64Limit)
    (hsize : objectSize key exampleValue ≠ 0) (n : Nat) :
    ∃ tr v', Runs (TrackedKeys.step none) anyAction v tr v' ∧ v'.lru = v.lru ∧
      (v'.curGroupId, v'.curGroupKeycnt) =
        (fun g : Nat × Nat => assignGroup g.1 g.2)^[n] (v.curGroupId, v.curGroupKeycnt) := by
  induction n with
  | zero => exact ⟨[], v, .nil, rfl, rfl⟩
  | succ n ih =>
    obtain ⟨tr, w, hrun, hlru, hgroup⟩ := ih
    have hkeys : w.keys = v.keys := congrArg (map Prod.fst) hlru
    obtain ⟨tr', v', hrun', hlru', hgroup'⟩ :=
      exists_pass (v := w) (hkeys ▸ hnew) (hkeys ▸ hbytes) hsize
    refine ⟨tr' ++ tr, v', hrun.trans hrun', hlru'.trans hlru, hgroup'.trans ?_⟩
    rw [Function.iterate_succ_apply', ← hgroup]

/-- New keys all go to the current group while that has room. -/
theorem exists_additions (keys : List Key) (hnodup : (keys ++ v.keys).Nodup)
    (hbytes : bytesOfKeys (keys ++ v.keys) < uint64Limit)
    (hsize : ∀ k ∈ keys, objectSize k exampleValue ≠ 0)
    (hroom : v.curGroupKeycnt + keys.length ≤ coveredPergroupMaxkeycnt) :
    ∃ tr v', Runs (TrackedKeys.step none) anyAction v tr v' ∧ v'.groupIds.count v.curGroupId =
      v.groupIds.count v.curGroupId + keys.length := by
  induction keys generalizing v with
  | nil => exact ⟨[], v, .nil, rfl⟩
  | cons k rest ih =>
    have hperm : (rest ++ k :: v.keys).Perm (k :: (rest ++ v.keys)) := perm_middle
    have hnew : k ∉ v.keys := fun hmem =>
      (nodup_cons.1 hnodup).1 (mem_append_right _ hmem)
    rw [cons_append, bytesOfKeys_cons] at hbytes
    have happend := bytesOfKeys_append rest v.keys
    rw [length_cons] at hroom ⊢
    obtain ⟨w, t, hadd, hlru, hgroups, hassign⟩ :=
      exists_addition _ hnew (by omega) (hsize k mem_cons_self)
    rw [assignGroup, if_neg (by omega), Prod.mk.injEq] at hassign
    have hkeys : w.keys = k :: v.keys := congrArg (map Prod.fst) hlru
    obtain ⟨tr, v', hrun, hcount⟩ := ih (v := w)
      (hkeys ▸ hperm.nodup_iff.2 hnodup)
      (by rw [hkeys, bytesOfKeys_perm hperm, bytesOfKeys_cons]; exact hbytes)
      (fun k' hk' => hsize k' (mem_cons_of_mem k hk')) (by omega)
    refine ⟨_, v', (Runs.cons .nil trivial hadd).trans hrun, ?_⟩
    rw [← hassign.1, hcount, hgroups, count_cons_self]
    omega

/-- The group `0` with eleven keys: one key of it stays tracked until the group ids start again. -/
theorem group_exceeds_maximum :
    ∃ tr, ∃ s : CacheMetadataBase HeteroKeyLevelMetadata,
      Runs (CacheMetadataBase.step none) anyAction CacheMetadataBase.empty tr s ∧
      s.records.pergroupMetadataMap.lookup 0 = some ⟨11⟩ ∧
      ¬ GroupsBounded s := by
  have key : ∃ tr, ∃ v : TrackedKeys HeteroKeyLevelMetadata, Runs (TrackedKeys.step none) anyAction
      TrackedKeys.empty tr v ∧ v.groupIds.count 0 = 11 := by
    -- one key in the group 0
    obtain ⟨v₁, t₁, hadd₁, hlru₁, hgroups₁, hassign₁⟩ := exists_addition
      (v := TrackedKeys.empty) (keyOf 0) (by decide) (by decide) (by decide)
    have hassign₁ : (v₁.curGroupId, v₁.curGroupKeycnt) = (0, 1) := hassign₁
    have hkeys₁ : v₁.keys = [keyOf 0] := congrArg (List.map Prod.fst) hlru₁
    -- another one, again and again, until the last group id is used up
    obtain ⟨tr₂, v₂, hrun₂, hlru₂, hgroup₂⟩ := exists_passes (v := v₁) (keyOf 1)
      (by rw [hkeys₁]; decide) (by rw [hkeys₁]; decide) (by decide)
      (coveredPergroupMaxkeycnt * uint32Limit - 1)
    rw [hassign₁, iterate_assignGroup] at hgroup₂
    have hgroup₂ : (v₂.curGroupId, v₂.curGroupKeycnt) =
        (uint32Limit - 1, coveredPergroupMaxkeycnt) := hgroup₂.trans (by decide)
    rw [Prod.mk.injEq] at hgroup₂
    have hkeys₂ : v₂.keys = [keyOf 0] := (congrArg (List.map Prod.fst) hlru₂).trans hkeys₁
    have hgroups₂ : v₂.groupIds = [0] := by
      have hid : v₁.curGroupId = 0 := congrArg Prod.fst hassign₁
      rw [LruRecords.groupIds, hlru₂, ← LruRecords.groupIds, hgroups₁, hid]
      rfl
    -- the next key opens the group 0 again
    obtain ⟨v₃, t₃, hadd₃, hlru₃, hgroups₃, hassign₃⟩ := exists_addition (v := v₂) (keyOf 1)
      (by rw [hkeys₂]; decide) (by rw [hkeys₂]; decide) (by decide)
    rw [hgroup₂.1, hgroup₂.2] at hassign₃
    have hassign₃ : (v₃.curGroupId, v₃.curGroupKeycnt) = (0, 1) := hassign₃.trans (by decide)
    rw [Prod.mk.injEq] at hassign₃
    have hkeys₃ : v₃.keys = [keyOf 1, keyOf 0] := by
      rw [LruRecords.keys, hlru₃, List.map_cons, ← LruRecords.keys, hkeys₂]
    -- and nine more keys follow
    obtain ⟨tr₄, v₄, hrun₄, hcount₄⟩ := exists_additions (v := v₃)
      ((List.range 9).map (keyOf <| · + 2))
      (by rw [hkeys₃]; decide) (by rw [hkeys₃]; decide) (by decide) (by rw [hassign₃.2]; decide)
    rw [hassign₃.1, hgroups₃, hassign₃.1, hgroups₂] at hcount₄
    exact ⟨_, v₄, ((Runs.cons .nil trivial hadd₁).trans hrun₂).trans
      ((Runs.cons .nil trivial hadd₃).trans hrun₄), hcount₄⟩
  obtain ⟨tr, v, hrun, hcount⟩ := key
  obtain ⟨s, hrun', hrep⟩ : ∃ s, Runs (CacheMetadataBase.step none) anyAction
      CacheMetadataBase.empty tr s ∧ Represents s v :=
    runs_simulated (R := fun v s => Represents s v)
      (fun v s o hrep => rel_mono (rel_flip (hrep.step_simulated none o))
        fun _ _ h => ⟨h.1, h.2.symm⟩) (fun _ _ _ _ _ => trivial) hrun .empty
  have hlookup : s.records.pergroupMetadataMap.lookup 0 = some ⟨11⟩ := by
    rw [hrep.records.group, LruRecords.group, hcount]
    rfl
  exact ⟨tr, s, hrun', hlookup, fun hbounded => absurd (hbounded 0 _ hlookup) (by decide)⟩

end Wrap

end Covered.Cache
