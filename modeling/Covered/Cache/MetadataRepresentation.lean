import Mathlib.Data.List.Dedup
import Covered.Cache.CacheMetadataBase
import Covered.Cache.TrackedKeys
import Covered.Lib.Simulation

/-!
# The container represents the tracked keys

`Represents s v` relates a container with its iterators to what it stands for: its list and its
multimap are those of `v`, the places in the lookup table denote the elements of their keys, and the
counters follow from the records. Every operation of the container is simulated by the one on
`TrackedKeys`, aborts included (`step_simulated`), so the invariants of the container are those of
`TrackedKeys`.
-/

set_option autoImplicit false

namespace Covered.Cache

open Common Lib Lib.Checked Lib.Execution Lib.Simulation UnorderedMap LinkedList Option LruRecords
open KeyLevelMetadata
open CacheMetadataBase

/-- A place in the lookup table denotes the record and the reward of its key. -/
structure Denotes {T : Type} (s : CacheMetadataBase T) (key : Key) (entry : LookupMetadata) (t : T)
    (r : Reward) : Prop where
  lookup : s.perkeyLookupTable.lookup key = some entry
  node : s.records.perkeyMetadataList.get entry.perkeyMetadataListIter = some (key, t)
  reward : s.sortedRewardMultimap.get entry.sortedRewardIter = some (r, key)

/-- Another record at the place of a key. -/
theorem Denotes.set {T : Type} {s : CacheMetadataBase T} {key : Key} {entry : LookupMetadata}
    {t : T} {r : Reward} (hd : Denotes s key entry t r) (t' : T) :
    Denotes { s with records := { s.records with
      perkeyMetadataList :=
        s.records.perkeyMetadataList.set entry.perkeyMetadataListIter (key, t') } }
      key entry t' r :=
  ⟨hd.lookup, (get_set hd.node).trans (if_pos rfl), hd.reward⟩

theorem Denotes.moveToFront {T : Type} {s : CacheMetadataBase T} {key : Key}
    {entry : LookupMetadata} {t : T} {r : Reward} (hd : Denotes s key entry t r) (it : Nat) :
    Denotes { s with records := s.records.moveToFront it } key entry t r :=
  ⟨hd.lookup, get_moveToFront.trans hd.node, hd.reward⟩

/-- The container `s` stands for the tracked keys `v`. -/
structure Represents {T : Type} [KeyLevelMetadata T] (s : CacheMetadataBase T) (v : TrackedKeys T) :
    Prop where
  records : s.records.Represents v.toLruRecords
  multimap : s.sortedRewardMultimap.toList = v.rewards
  exists_iff : ∀ key, s.isKeyExist key = true ↔ key ∈ v.keys
  places : ∀ key entry, s.perkeyLookupTable.lookup key = some entry → ∃ t r, Denotes s key entry t r
  rewardBytes : s.sortedRewardMultimapKeySize = bytesOfKeys v.keys
  tableBytes : s.perkeyLookupTableKeySize = bytesOfKeys v.keys

namespace Represents

variable {T : Type} [KeyLevelMetadata T] {s : CacheMetadataBase T} {v : TrackedKeys T} {key : Key}
  {t t' : T} {r : Reward} {entry : LookupMetadata}

theorem empty : Represents (empty : CacheMetadataBase T) TrackedKeys.empty where
  records := PerkeyRecords.Represents.empty
  multimap := rfl
  exists_iff key := by
    constructor
    · intro h
      cases h
    · intro h
      cases h
  places key entry h := by cases h
  rewardBytes := rfl
  tableBytes := rfl

section Represents

variable (h : Represents s v)
include h

theorem nodup_multimap :
    KeyedList.NodupKeys Prod.snd s.sortedRewardMultimap.toList := h.multimap ▸ v.nodup_rewards

/-! ## Places -/

theorem lookup_eq_none (hr : v.record key = none) : s.getLookup key = none := by
  have hnot := fun hexists => record_eq_none_iff.1 hr ((h.exists_iff key).1 hexists)
  rw [isKeyExist, isSome_iff_ne_none] at hnot
  exact not_not.1 hnot

theorem exists_denotes (hr : v.record key = some t) : ∃ entry r, Denotes s key entry t r := by
  have hexists := (h.exists_iff key).2 (mem_keys_of_record hr)
  obtain ⟨entry, hentry⟩ := isSome_iff_exists.1 hexists
  obtain ⟨t', r, hdenotes⟩ := h.places key entry hentry
  have hsame := (h.records.record_of_get hdenotes.node).symm.trans hr
  cases hsame
  exact ⟨entry, r, hdenotes⟩

theorem find_reward (hget : s.sortedRewardMultimap.get entry.sortedRewardIter = some (r, key)) :
    KeyedList.find Prod.snd key v.rewards = some (r, key) :=
  (KeyedList.find_eq_some_iff v.nodup_rewards).2
    ⟨h.multimap ▸ mem_toList_iff.2 ⟨_, hget⟩, rfl⟩

theorem getkeyLevelMetadata (key : Key) : s.getkeyLevelMetadata key = v.record key := by
  rw [CacheMetadataBase.getkeyLevelMetadata]
  cases hr : v.record key with
  | none =>
    rw [h.lookup_eq_none hr]
    rfl
  | some t =>
    obtain ⟨entry, r, hd⟩ := h.exists_denotes hr
    have hlookup : s.getLookup key = some entry := hd.lookup
    simp only [hlookup, hd.node, some_bind, pure_def]

theorem getObjectSize (hr : v.record key = some t) :
    s.getObjectSize key = some (getObjectSize t) := by
  rw [CacheMetadataBase.getObjectSize, h.getkeyLevelMetadata, hr]
  rfl

/-! ## Steps -/

/-- A record replaced in its place. -/
theorem setRecord (hd : Denotes s key entry t r) (hgroup : getGroupId t' = getGroupId t) :
    Represents { s with records := { s.records with
        perkeyMetadataList :=
          s.records.perkeyMetadataList.set entry.perkeyMetadataListIter (key, t') } }
      (v.setRecord key t') where
  records := h.records.setRecord hd.node hgroup
  multimap := h.multimap
  exists_iff key' := by
    show _ ↔ key' ∈ (v.toLruRecords.setRecord key t').keys
    rw [keys_setRecord]
    exact h.exists_iff key'
  places key' entry' hentry := by
    obtain ⟨u, r', hd'⟩ := h.places key' entry' hentry
    by_cases hit : entry'.perkeyMetadataListIter = entry.perkeyMetadataListIter
    · have hsame := hd'.node.symm.trans (hit ▸ hd.node)
      cases hsame
      exact ⟨t', r', hentry, (get_set hd.node).trans (if_pos hit), hd'.reward⟩
    · have hnode := (get_set (a := (key, t')) hd.node).trans (if_neg hit)
      exact ⟨u, r', hentry, hnode.trans hd'.node, hd'.reward⟩
  rewardBytes := h.rewardBytes.trans (congrArg bytesOfKeys keys_setRecord).symm
  tableBytes := h.tableBytes.trans (congrArg bytesOfKeys keys_setRecord).symm

theorem moveToFront (hd : Denotes s key entry t r) :
    Represents { s with records := s.records.moveToFront entry.perkeyMetadataListIter }
      (v.moveToFront key) where
  records := h.records.moveToFront hd.node
  multimap := h.multimap
  exists_iff key' := (h.exists_iff key').trans (v.toLruRecords.perm_moveToFront key).mem_iff.symm
  places key' entry' hentry := by
    obtain ⟨u, r', hd'⟩ := h.places key' entry' hentry
    exact ⟨u, r', hd'.moveToFront _⟩
  rewardBytes := h.rewardBytes.trans (bytesOfKeys_perm (v.toLruRecords.perm_moveToFront key)).symm
  tableBytes := h.tableBytes.trans (bytesOfKeys_perm (v.toLruRecords.perm_moveToFront key)).symm

/-- A reward replaced behind the equal ones. -/
theorem setReward (hd : Denotes s key entry t r) (r' : Reward) :
    Represents
      { s with
        sortedRewardMultimap := (s.sortedRewardMultimap.erase entry.sortedRewardIter).insertSorted
          Prod.fst (r', key)
        perkeyLookupTable := s.perkeyLookupTable.insert key
          { entry with sortedRewardIter := s.sortedRewardMultimap.next } }
      (v.setReward key r') where
  records := h.records
  multimap := by
    have hfind := h.find_reward hd.reward
    rw [toList_insertSorted, toList_erase h.nodup_multimap hd.reward,
      h.multimap]
    show _ = v.rewardsWith key r'
    rw [TrackedKeys.rewardsWith, hfind]
  exists_iff key' := by
    rw [isKeyExist, lookup_insert_eq]
    split
    · next heq =>
      -- the key was there before
      rw [heq]
      exact iff_of_true rfl (mem_keys_of_record (h.records.record_of_get hd.node))
    · exact h.exists_iff key'
  places key' entry' hentry := by
    rw [lookup_insert_eq] at hentry
    by_cases heq : key' = key
    · subst heq
      rw [if_pos rfl] at hentry
      cases hentry
      refine ⟨t, r', ?_, hd.node, ?_⟩
      · exact (lookup_insert_eq _ _ _ _).trans (if_pos rfl)
      · exact (get_insertSorted Prod.fst).trans (if_pos rfl)
    · rw [if_neg heq] at hentry
      obtain ⟨u, r'', hd'⟩ := h.places key' entry' hentry
      have hlookup := (lookup_insert_eq s.perkeyLookupTable key' key
        { entry with sortedRewardIter := s.sortedRewardMultimap.next }).trans
        ((if_neg heq).trans hentry)
      -- another key has another place, which the erased and the new reward leave alone
      have hiter : entry'.sortedRewardIter ≠ entry.sortedRewardIter := by
        intro hiter
        have hsame := hd'.reward.symm.trans (hiter ▸ hd.reward)
        cases hsame
        exact heq rfl
      have hnext : entry'.sortedRewardIter ≠
          (s.sortedRewardMultimap.erase entry.sortedRewardIter).next :=
        Nat.ne_of_lt (show _ < s.sortedRewardMultimap.next from
          lt_next_of_get hd'.reward)
      have hget := (get_insertSorted (a := (r', key)) Prod.fst).trans
        ((if_neg hnext).trans (get_erase.trans (if_neg hiter)))
      exact ⟨u, r'', hlookup, hd'.node, hget.trans hd'.reward⟩
  rewardBytes := h.rewardBytes
  tableBytes := h.tableBytes

/-! ## Operations -/

theorem updatePopularityAndReward (hd : Denotes s key entry t r) (edge : EdgeContext) :
    Option.Rel Represents (s.updatePopularityAndReward edge key entry)
      (v.updatePopularityAndReward edge key t) := by
  rw [CacheMetadataBase.updatePopularityAndReward, TrackedKeys.updatePopularityAndReward,
    PerkeyRecords.updatePerkeyMetadata_eq hd.node]
  cases hpop : KeyLevelMetadata.calculateAndUpdatePopularity edge t with
  | none => exact .none
  | some t' =>
    have hset := h.setRecord hd (KeyLevelMetadata.popularity_keeps hpop).1
    have hupdate := hset.setReward (hd.set t') (KeyLevelMetadata.calculateReward edge t')
    simp only [CacheMetadataBase.updateReward, hd.reward, Option.map_some, some_bind,
      Option.pure_def]
    exact .some hupdate

theorem updateNoValueStats (edge : EdgeContext) (key : Key) {update : T → Option T}
    (hkeeps : ∀ t t', update t = some t' → getGroupId t' = getGroupId t) :
    Option.Rel Represents (s.updateNoValueStats edge key update)
      (v.updateNoValueStats edge key update) := by
  rw [CacheMetadataBase.updateNoValueStats, TrackedKeys.updateNoValueStats]
  cases hr : v.record key with
  | none =>
    rw [h.lookup_eq_none hr]
    exact .none
  | some t =>
    obtain ⟨entry, r, hd⟩ := h.exists_denotes hr
    have hlookup : s.getLookup key = some entry := hd.lookup
    simp only [hlookup, bind_eq_bind, bind_some,
      PerkeyRecords.updatePerkeyMetadata_eq hd.node]
    cases ht : update t with
    | none => exact .none
    | some t' =>
      have hmove := (h.setRecord hd (hkeeps t t' ht)).moveToFront (hd.set t')
      have hd' := (hd.set t').moveToFront entry.perkeyMetadataListIter
      obtain ⟨group, hgroup, -⟩ :=
        hmove.records.exists_group (hmove.records.record_of_get hd'.node)
      simp only [map_some, bind_some, hgroup]
      exact hmove.updatePopularityAndReward hd' edge

theorem updateValueStatsForExistingKey (edge : EdgeContext) (key : Key)
    (value originalValue : Value) :
    Option.Rel Represents (s.updateValueStatsForExistingKey edge key value originalValue)
      (v.updateInPlace edge key fun t => updateValueDynamicMetadata t
        (objectSize key value) (objectSize key originalValue)) := by
  rw [CacheMetadataBase.updateValueStatsForExistingKey, TrackedKeys.updateInPlace]
  cases hr : v.record key with
  | none =>
    rw [h.lookup_eq_none hr]
    exact .none
  | some t =>
    obtain ⟨entry, r, hd⟩ := h.exists_denotes hr
    have hlookup : s.getLookup key = some entry := hd.lookup
    simp only [hlookup, some_bind, PerkeyRecords.updatePerkeyMetadata_eq hd.node]
    cases ht : updateValueDynamicMetadata t (objectSize key value)
      (objectSize key originalValue) with
    | none => exact .none
    | some t' =>
      have hset := h.setRecord hd (value_spec ht).1
      have hd' := hd.set t'
      obtain ⟨group, hgroup, hpos⟩ := hset.records.exists_group
        (hset.records.record_of_get hd'.node)
      simp only [map_some, some_bind, hgroup,
        GroupLevelMetadata.updateValueStatsForInGroupKey, require_bind hpos, pure_def]
      exact hset.updatePopularityAndReward hd' edge

theorem removeForExistingKey (key : Key) :
    Option.Rel Represents (s.removeForExistingKey key) (v.remove key) := by
  rw [CacheMetadataBase.removeForExistingKey, TrackedKeys.remove]
  cases hr : v.record key with
  | none =>
    rw [h.lookup_eq_none hr]
    exact .none
  | some t =>
    obtain ⟨entry, r, hd⟩ := h.exists_denotes hr
    have hlookup : s.getLookup key = some entry := hd.lookup
    obtain ⟨c₁, c₂, hgroup, hnode, hrecords, hlist⟩ := h.records.exists_removed hd.node
    simp only [hlookup, hd.node, hgroup, hnode, hd.reward, some_bind,
      CacheMetadataBase.removeReward, CacheMetadataBase.removeLookup,
      Option.pure_def]
    refine .some ?_
    constructor
    case records => exact hrecords
    case multimap =>
      exact (LinkedList.toList_erase h.nodup_multimap hd.reward).trans (by rw [h.multimap]; rfl)
    case exists_iff =>
      intro key'
      show _ ↔ key' ∈ (v.toLruRecords.removeKey key).keys
      rw [CacheMetadataBase.isKeyExist, UnorderedMap.lookup_erase_eq, LruRecords.keys_removeKey,
        List.mem_filter, decide_eq_true_eq]
      split
      · next heq => exact iff_of_false Bool.false_ne_true fun hmem => hmem.2 heq
      · next heq => exact (h.exists_iff key').trans (and_iff_left heq).symm
    case places =>
      intro key' entry' hentry
      rw [UnorderedMap.lookup_erase_eq] at hentry
      split at hentry
      · cases hentry
      · next heq =>
        obtain ⟨u, r', hd'⟩ := h.places key' entry' hentry
        have hnode' : c₂.perkeyMetadataList.get entry'.perkeyMetadataListIter = some (key', u) := by
          rw [hlist]
          refine LinkedList.get_erase.trans ((if_neg ?_).trans hd'.node)
          intro hit
          have hsame := hd'.node.symm.trans (hit ▸ hd.node)
          cases hsame
          exact heq rfl
        refine ⟨u, r', (UnorderedMap.lookup_erase_eq _ _ _).trans ((if_neg heq).trans hentry),
          hnode', LinkedList.get_erase.trans ((if_neg ?_).trans hd'.reward)⟩
        intro hit
        have hsame := hd'.reward.symm.trans (hit ▸ hd.reward)
        cases hsame
        exact heq rfl
    case rewardBytes =>
      rw [h.rewardBytes]
      exact (LruRecords.bytesOfKeys_removeKey hr).symm
    case tableBytes =>
      rw [h.tableBytes]
      exact (LruRecords.bytesOfKeys_removeKey hr).symm

/-- A new key with its record, its reward and its place. -/
theorem insertKey (hnew : key ∉ v.keys)
    (hbytes : bytesOfKeys v.keys + key.getKeyLength < uint64Limit) {c : PerkeyRecords T}
    (hrecords : c.Represents (v.toLruRecords.insertKey key t hnew hbytes))
    (hget : ∀ it, c.perkeyMetadataList.get it =
      if it = s.records.perkeyMetadataList.next then some (key, t)
      else s.records.perkeyMetadataList.get it) (r : Reward) :
    Represents
      { records := c
        sortedRewardMultimapKeySize := bytesOfKeys v.keys + key.getKeyLength
        sortedRewardMultimap := s.sortedRewardMultimap.insertSorted Prod.fst (r, key)
        perkeyLookupTableKeySize := bytesOfKeys v.keys + key.getKeyLength
        perkeyLookupTable := (s.perkeyLookupTable.insert key {}).insert key
          ⟨s.records.perkeyMetadataList.next, s.sortedRewardMultimap.next⟩ }
      (v.insertKey key t r hnew hbytes) := by
  have hkeys : bytesOfKeys (v.insertKey key t r hnew hbytes).keys =
      bytesOfKeys v.keys + key.getKeyLength := (bytesOfKeys_cons _ _).trans (Nat.add_comm _ _)
  constructor
  case records => exact hrecords
  case multimap => rw [toList_insertSorted, h.multimap]; rfl
  case exists_iff =>
    intro key'
    rw [isKeyExist, lookup_insert_eq,
      lookup_insert_eq]
    show _ ↔ key' ∈ key :: v.keys
    rw [List.mem_cons]
    by_cases heq : key' = key
    · rw [if_pos heq]
      exact iff_of_true rfl (.inl heq)
    · rw [if_neg heq, if_neg heq, or_iff_right heq]
      exact h.exists_iff key'
  case places =>
    intro key' entry hentry
    rw [lookup_insert_eq, lookup_insert_eq] at hentry
    have hlookup := (lookup_insert_eq (s.perkeyLookupTable.insert key {}) key' key
      ⟨s.records.perkeyMetadataList.next, s.sortedRewardMultimap.next⟩).trans
      ((congrArg _ (lookup_insert_eq _ _ _ _)).trans hentry)
    by_cases heq : key' = key
    · subst heq
      rw [if_pos rfl] at hentry
      cases hentry
      exact ⟨t, r, hlookup, (hget _).trans (if_pos rfl),
        (get_insertSorted Prod.fst).trans (if_pos rfl)⟩
    · rw [if_neg heq, if_neg heq] at hentry
      obtain ⟨u, r', hd⟩ := h.places key' entry hentry
      -- an existing place is older than the new ones
      have hnode := Nat.ne_of_lt (lt_next_of_get hd.node)
      have hreward := Nat.ne_of_lt (lt_next_of_get hd.reward)
      exact ⟨u, r', hlookup, (hget _).trans ((if_neg hnode).trans hd.node),
        (get_insertSorted Prod.fst).trans ((if_neg hreward).trans hd.reward)⟩
  case rewardBytes => exact hkeys.symm
  case tableBytes => exact hkeys.symm

theorem addKey (edge : EdgeContext) (key : Key) (value : Value)
    (isGlobalCached isNeighborCached : Bool) (added addedRedirected : Nat) :
    Option.Rel Represents
      (s.addKey edge key value isGlobalCached isNeighborCached added addedRedirected)
      (v.addKey edge key value isGlobalCached isNeighborCached added addedRedirected) := by
  rw [CacheMetadataBase.addKey, TrackedKeys.addKey]
  by_cases hnew : key ∈ v.keys
  · -- the key is there already
    have hlookup : s.perkeyLookupTable.lookup key ≠ none :=
      isSome_iff_ne_none.1 ((h.exists_iff key).2 hnew)
    rw [dif_neg fun hand => hand.1 hnew, addLookup, require_of_not hlookup]
    exact .none
  have hlookup : s.perkeyLookupTable.lookup key = none := by
    have hnot := fun hexists => hnew ((h.exists_iff key).1 hexists)
    rw [isKeyExist, isSome_iff_ne_none] at hnot
    exact not_not.1 hnot
  by_cases hbytes : bytesOfKeys v.keys + key.getKeyLength < uint64Limit
  · rw [dif_pos ⟨hnew, hbytes⟩]
    have hadd := uint64Add_eq hbytes
    simp only [addLookup, hlookup, h.tableBytes, hadd, require_bind, some_bind,
      pure_def]
    refine rel_bind (h.records.addRecord hnew hbytes edge value isGlobalCached isNeighborCached
      added addedRedirected) ?_
    rintro ⟨c, it, t'⟩ t ⟨rfl, rfl, hrecords, hget⟩
    simp only [addReward, h.rewardBytes, hadd, some_bind, pure_def]
    exact .some (h.insertKey hnew hbytes hrecords hget (calculateReward edge t'))
  · rw [dif_neg fun hand => hbytes hand.2]
    simp only [addLookup, hlookup, h.tableBytes,
      uint64Add_eq_none (Nat.not_lt.1 hbytes), require_bind_of, bind_eq_bind,
      bind_none]
    exact .none

/-! ## The budget -/

theorem getSizeForCapacity (isLocalCachedMetadata : Bool) :
    s.getSizeForCapacity isLocalCachedMetadata = v.getSizeForCapacity isLocalCachedMetadata := by
  have hgroups : s.records.pergroupMetadataMap.entries.length = v.groupIds.dedup.length :=
    length_entries _ (List.nodup_dedup _) fun groupId => by
      rw [h.records.group, isSome_group_iff, List.mem_dedup]
  have htable : s.perkeyLookupTable.entries.length = v.lru.length :=
    (length_entries _ v.nodup h.exists_iff).trans (List.length_map _)
  simp only [CacheMetadataBase.getSizeForCapacity, TrackedKeys.getSizeForCapacity, h.records.list,
    h.multimap, hgroups, htable, h.rewardBytes, h.tableBytes, v.length_rewards]

end Represents

theorem detrackForCapacity (maxBytes : Nat) (h : Represents s v) (fuel : Nat) :
    Option.Rel Represents (s.detrackForCapacity maxBytes fuel)
      (v.detrackForCapacity maxBytes fuel) := by
  induction fuel generalizing s v with
  | zero => exact .none
  | succ fuel ih =>
    rw [detrackForCapacity, TrackedKeys.detrackForCapacity,
      h.getSizeForCapacity]
    apply rel_bind_same
    intro size _
    split
    · rw [getLeastRewardKeyAndReward, h.multimap]
      cases hleast : v.rewards[0]? with
      | none => exact .none
      | some pair =>
        -- a key with a reward has a record, whose size is read before it is removed
        have hkey : pair.2 ∈ v.keys :=
          v.perm.mem_iff.1 (List.mem_map_of_mem (List.mem_of_getElem? hleast))
        obtain ⟨t, ht⟩ := ne_none_iff_exists'.1 fun hnone =>
          record_eq_none_iff.1 hnone hkey
        simp only [map_some, some_bind, h.getObjectSize ht]
        exact rel_bind (h.removeForExistingKey pair.2) fun _ _ h' => ih h'
    · exact .some h

theorem addForNewKey (maxBytes : Option Nat) (h : Represents s v) (edge : EdgeContext) (key : Key)
    (value : Value) (isGlobalCached isNeighborCached : Bool) (added addedRedirected : Nat) :
    Option.Rel Represents
      (s.addForNewKey maxBytes edge key value isGlobalCached isNeighborCached added addedRedirected)
      (v.addForNewKey maxBytes edge key value isGlobalCached isNeighborCached added
        addedRedirected) := by
  refine rel_bind (h.addKey edge key value isGlobalCached isNeighborCached added addedRedirected)
    fun s' v' h' => ?_
  cases maxBytes with
  | none => exact .some h'
  | some maxBytes =>
    rw [afterAddForNewKey, TrackedKeys.afterAddForNewKey, h'.records.list]
    exact h'.detrackForCapacity maxBytes _

/-! ## All operations -/

theorem rel_map_unit {x : Option (CacheMetadataBase T)} {y : Option (TrackedKeys T)}
    (h : Option.Rel Represents x y) :
    Option.Rel (RelOutput Represents) (x.map (·, ())) (y.map (·, ())) := by
  cases h with
  | some hrep => exact .some ⟨hrep, rfl⟩
  | none => exact .none

/-- Every operation of the container is the one on the tracked keys. -/
theorem step_simulated (maxBytes : Option Nat) (h : Represents s v) (o : MetadataOperation) :
    Option.Rel (RelOutput Represents) (s.step maxBytes o) (v.step maxBytes o) := by
  cases o with
  | addForNewKey edge key value isGlobalCached isNeighborCached added addedRedirected =>
    exact rel_map_unit (h.addForNewKey maxBytes edge key value isGlobalCached isNeighborCached added
      addedRedirected)
  | updateNoValueStatsForExistingKey edge key isRedirected isGlobalCached =>
    exact rel_map_unit (h.updateNoValueStats edge key fun t t' ht =>
      (noValue_keeps ht).1)
  | updateNoValueStatsForExistingKeyP2p edge key isRedirected isGlobalCached redirectedReward =>
    exact rel_map_unit (rel_require_bind Iff.rfl fun _ =>
      h.updateNoValueStats edge key fun t t' ht => (noValue_keeps ht).1)
  | updateValueStatsForExistingKey edge key value originalValue =>
    exact rel_map_unit (h.updateValueStatsForExistingKey edge key value originalValue)
  | removeForExistingKey key => exact rel_map_unit (h.removeForExistingKey key)

/-! ## The flags for copies at other edges -/

theorem updateIsGlobalCached {s : CacheMetadataBase HomoKeyLevelMetadata}
    {v : TrackedKeys HomoKeyLevelMetadata} (h : Represents s v) (edge : EdgeContext) (key : Key)
    (isGetrsp isGlobalCached : Bool) :
    Option.Rel Represents (s.updateIsGlobalCachedForExistingKey edge key isGetrsp isGlobalCached)
      (v.updateIsGlobalCached edge key isGetrsp isGlobalCached) := by
  refine rel_require_bind Iff.rfl fun _ => ?_
  cases hr : v.record key with
  | none =>
    rw [h.lookup_eq_none hr]
    exact .none
  | some t =>
    obtain ⟨entry, r, hd⟩ := h.exists_denotes hr
    have hlookup : s.getLookup key = some entry := hd.lookup
    simp only [hlookup, some_bind, PerkeyRecords.updatePerkeyMetadata_eq hd.node]
    cases ht : t.changeIsGlobalCached isGlobalCached with
    | none => exact .none
    | some t' =>
      have hgroup : t'.base.groupId = t.base.groupId := by
        obtain ⟨-, hsame⟩ := (require_bind_eq_some_iff _ _ _).1 ht
        cases hsame
        rfl
      have hset := h.setRecord hd hgroup
      have hupdate := hset.setReward (hd.set _) (KeyLevelMetadata.calculateReward edge t')
      simp only [CacheMetadataBase.updateReward, hd.reward, Option.map_some, some_bind,
        Option.pure_def]
      exact .some hupdate

theorem updateIsNeighborCached {s : CacheMetadataBase HeteroKeyLevelMetadata}
    {v : TrackedKeys HeteroKeyLevelMetadata} (h : Represents s v) (key : Key)
    (isNeighborCached : Bool) :
    Option.Rel Represents (s.updateIsNeighborCachedForExistingKey key isNeighborCached)
      (v.updateIsNeighborCached key isNeighborCached) := by
  rw [updateIsNeighborCachedForExistingKey, TrackedKeys.updateIsNeighborCached]
  cases hr : v.record key with
  | none =>
    rw [h.lookup_eq_none hr]
    exact .none
  | some t =>
    obtain ⟨entry, r, hd⟩ := h.exists_denotes hr
    have hlookup : s.getLookup key = some entry := hd.lookup
    simp only [hlookup, some_bind, PerkeyRecords.updatePerkeyMetadata_eq hd.node, map_some,
      pure_def]
    exact .some (h.setRecord hd rfl)

end Represents

end Covered.Cache
