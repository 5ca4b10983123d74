import Covered.Cache.MetadataRepresentation
import Covered.Cache.LocalUncachedLru

/-!
# The object sizes that the metadata tracks

A container tracks an object size for each of its keys: `sizes` is that partial map. Every operation
has one lemma that says when it does not abort and what it does to the sizes. It aborts if the key
is not there (or already there), if the object size of the caller is not the tracked one, if the
object has no bytes, or if a byte count no longer fits into 64 bits.

The loops that enforce a budget end within as many passes as there are keys. They only drop keys;
the small LRU cache keeps its first key if the metadata of that key alone is within the budget.
-/

set_option autoImplicit false

namespace Covered.Cache

open Common Lib Lib.Checked Lib.Simulation KeyedList Function List KeyLevelMetadata LruRecords
open TrackedKeys

/-! ## Records -/

namespace LruRecords

variable {T : Type} [KeyLevelMetadata T] {w : LruRecords T} {key : Key} {t t' : T}

/-- The tracked object sizes. -/
def sizes (w : LruRecords T) (key : Key) : Option Nat :=
  (w.record key).map KeyLevelMetadata.getObjectSize

theorem sizes_eq_none_iff : w.sizes key = none ↔ key ∉ w.keys := by
  rw [sizes, Option.map_eq_none_iff, record_eq_none_iff]

theorem exists_of_sizes {n : Nat} (h : w.sizes key = some n) :
    ∃ t, w.record key = some t ∧ getObjectSize t = n :=
  Option.map_eq_some_iff.1 h

theorem sizes_of_record (h : w.record key = some t) :
    w.sizes key = some (getObjectSize t) := by
  rw [sizes, h, Option.map_some]

theorem sizes_setRecord (h : w.record key = some t) : (w.setRecord key t').sizes =
    update w.sizes key (some (getObjectSize t')) := by
  funext k
  by_cases hk : k = key
  · subst hk
    rw [update_self, sizes_of_record (record_setRecord h)]
  · have hreplaced : find Prod.fst k (replace Prod.fst key (key, t') w.lru) =
        if k = key then (find Prod.fst key w.lru).map fun _ => (key, t')
        else find Prod.fst k w.lru := find_replace rfl
    rw [if_neg hk] at hreplaced
    rw [update_of_ne hk, sizes, sizes]
    exact congrArg (fun pair => (Option.map Prod.snd pair).map getObjectSize)
      hreplaced

theorem sizes_setRecord_of_eq (h : w.record key = some t)
    (hsize : getObjectSize t' = getObjectSize t) :
    (w.setRecord key t').sizes = w.sizes := by
  rw [sizes_setRecord h, hsize, ← sizes_of_record h, update_eq_self]

theorem sizes_moveToFront (w : LruRecords T) (key : Key) : (w.moveToFront key).sizes = w.sizes := by
  funext k
  have hfind := find_perm (k := k) (w.moveToFront key).nodup (w.perm_recordsFrom key)
  exact congrArg (fun pair => (Option.map Prod.snd pair).map getObjectSize) hfind

theorem sizes_removeKey : (w.removeKey key).sizes = update w.sizes key none := by
  funext k
  have hfind : find Prod.fst k (erase Prod.fst key w.lru) =
      if k = key then none else find Prod.fst k w.lru := find_erase w.nodup
  have hsizes : (w.removeKey key).sizes k =
      ((if k = key then none else find Prod.fst k w.lru).map Prod.snd).map
        getObjectSize := by
    rw [← hfind]
    rfl
  rw [hsizes]
  by_cases hk : k = key
  · rw [if_pos hk, hk, update_self]
    rfl
  · rw [if_neg hk, update_of_ne hk]
    rfl

theorem sizes_insertKey (hnew : key ∉ w.keys)
    (hbytes : bytesOfKeys w.keys + key.getKeyLength < uint64Limit) :
    (w.insertKey key t hnew hbytes).sizes =
      update w.sizes key (some (getObjectSize t)) := by
  funext k
  have hfind := find_cons (f := Prod.fst) (k := k) (a := (key, t)) (l := w.lru)
  have hsizes : (w.insertKey key t hnew hbytes).sizes k =
      ((if key = k then some (key, t) else find Prod.fst k w.lru).map Prod.snd).map
        getObjectSize := by
    rw [← hfind]
    rfl
  rw [hsizes]
  by_cases hk : k = key
  · rw [if_pos hk.symm, hk, update_self]
    rfl
  · rw [if_neg (Ne.symm hk), update_of_ne hk]
    rfl

/-- The record of a new object with bytes. -/
theorem exists_newRecord {value : Value} {isGlobalCached : Bool} (isNeighborCached : Bool)
    {added addedRedirected : Nat} (edge : EdgeContext) (groupId : Nat)
    (haccept : ∀ m : T, ∃ m', updateNoValueDynamicMetadata m false isGlobalCached
      added addedRedirected = some m') (hsize : objectSize key value ≠ 0) :
    ∃ t : T, newRecord edge groupId key value isGlobalCached isNeighborCached added
      addedRedirected = some t := by
  obtain ⟨created, hcreated⟩ := haccept (create groupId isNeighborCached)
  have hzero := (noValue_keeps hcreated).2
  rw [getObjectSize_create] at hzero
  obtain ⟨sized, hsized⟩ := exists_value (m := created) (objectSize key value)
  rw [hzero] at hsized
  have hne : getObjectSize sized ≠ 0 := by
    rw [(value_spec hsized).2]
    exact hsize
  obtain ⟨t, ht⟩ := exists_popularity edge hne
  refine ⟨t, ?_⟩
  simp only [newRecord, hcreated, hsized, ht, some_bind]

/-- The number of groups with a key. -/
def groupCnt (w : LruRecords T) : Nat := w.groupIds.dedup.length

theorem groupCnt_insertKey (hnew : key ∉ w.keys)
    (hbytes : bytesOfKeys w.keys + key.getKeyLength < uint64Limit) :
    (w.insertKey key t hnew hbytes).groupCnt ≤ w.groupCnt + 1 := by
  rw [groupCnt, groupIds_insertKey, groupCnt]
  by_cases hmem : getGroupId t ∈ w.groupIds
  · rw [dedup_cons_of_mem hmem]
    exact Nat.le_succ _
  · rw [dedup_cons_of_notMem hmem, length_cons]

theorem groupCnt_removeKey (w : LruRecords T) (key : Key) :
    (w.removeKey key).groupCnt ≤ w.groupCnt := by
  have hsub : (w.removeKey key).groupIds ⊆ w.groupIds :=
    (KeyedList.erase_sublist.map fun pair : Key × T => getGroupId pair.2).subset
  refine (subperm_of_subset (nodup_dedup _) fun groupId hmem => ?_).length_le
  exact mem_dedup.2 (hsub (mem_dedup.1 hmem))

end LruRecords

/-- `g` has some of the sizes of `f`. -/
def Part (f g : Key → Option Nat) : Prop := ∀ key, g key = f key ∨ g key = none

theorem Part.refl (f : Key → Option Nat) : Part f f := fun _ => .inl rfl

theorem Part.trans {f g h : Key → Option Nat} (hg : Part f g) (hh : Part g h) : Part f h := by
  intro key
  rcases hh key with heq | hnone
  · rw [heq]
    exact hg key
  · exact .inr hnone

theorem Part.erase (f : Key → Option Nat) (key : Key) : Part f (update f key none) := by
  intro k
  by_cases hk : k = key
  · rw [hk, update_self]
    exact .inr rfl
  · rw [update_of_ne hk]
    exact .inl rfl

/-! ## The containers with rewards -/

namespace TrackedKeys

variable {T : Type} [KeyLevelMetadata T] {v : TrackedKeys T} {key : Key} {t t' : T}

theorem exists_updatePopularityAndReward (edge : EdgeContext) (hr : v.record key = some t)
    (hsize : getObjectSize t ≠ 0) :
    ∃ v', v.updatePopularityAndReward edge key t = some v' ∧ v'.sizes = v.sizes := by
  obtain ⟨t', ht⟩ := exists_popularity edge hsize
  rw [updatePopularityAndReward, ht]
  exact ⟨_, rfl, sizes_setRecord_of_eq hr (popularity_keeps ht).2⟩

theorem exists_updateNoValueStats (edge : EdgeContext) {update : T → Option T}
    (hr : v.record key = some t) (ht : update t = some t')
    (hkeeps : getObjectSize t' = getObjectSize t)
    (hsize : getObjectSize t ≠ 0) :
    ∃ v', v.updateNoValueStats edge key update = some v' ∧ v'.sizes = v.sizes := by
  have hmoved : ((v.setRecord key t').moveToFront key).record key = some t' :=
    record_moveToFront (record_setRecord hr)
  obtain ⟨v', hv', hsizes⟩ := exists_updatePopularityAndReward edge hmoved (hkeeps ▸ hsize)
  refine ⟨v', ?_, ?_⟩
  · simp only [updateNoValueStats, hr, ht, some_bind]
    exact hv'
  · rw [hsizes, toLruRecords_moveToFront, sizes_moveToFront, toLruRecords_setRecord,
      sizes_setRecord_of_eq hr hkeeps]

variable {value : Value}

/-- The value of an object changes; the caller has to know its tracked size. -/
theorem exists_updateValueStats (edge : EdgeContext) {originalValue : Value}
    (h : v.sizes key = some (objectSize key originalValue)) (hsize : objectSize key value ≠ 0) :
    ∃ v', v.updateInPlace edge key (fun t => updateValueDynamicMetadata t
        (objectSize key value) (objectSize key originalValue)) = some v' ∧
      v'.sizes = update v.sizes key (some (objectSize key value)) := by
  obtain ⟨t, hr, hold⟩ := exists_of_sizes h
  obtain ⟨t', ht⟩ := exists_value (m := t) (objectSize key value)
  rw [hold] at ht
  have hnew := (value_spec ht).2
  have hset : (v.setRecord key t').record key = some t' := record_setRecord hr
  obtain ⟨v', hv', hsizes⟩ := exists_updatePopularityAndReward edge hset (hnew ▸ hsize)
  refine ⟨v', ?_, ?_⟩
  · simp only [updateInPlace, hr, ht, some_bind]
    exact hv'
  · rw [hsizes, toLruRecords_setRecord, sizes_setRecord hr, hnew]

variable {n added addedRedirected : Nat}

theorem exists_remove (h : v.sizes key = some n) :
    ∃ v', v.remove key = some v' ∧ v'.sizes = update v.sizes key none := by
  obtain ⟨t, hr, -⟩ := exists_of_sizes h
  rw [remove, hr]
  exact ⟨_, rfl, sizes_removeKey⟩

/-- The bytes of the metadata of uncached keys. -/
def metadataBytes (v : TrackedKeys T) : Nat :=
  v.lru.length * KeyLevelMetadata.sizeForCapacity T + v.groupCnt * 8 + v.lru.length * 20 +
    2 * bytesOfKeys v.keys

/-- The bytes that a new key adds at most. -/
def newKeyBytes (T : Type) [KeyLevelMetadata T] (key : Key) : Nat :=
  KeyLevelMetadata.sizeForCapacity T + 28 + 2 * key.getKeyLength

theorem getSizeForCapacity_eq (h : v.metadataBytes < uint64Limit) :
    v.getSizeForCapacity false = some v.metadataBytes := by
  rw [metadataBytes, groupCnt] at h
  simp only [getSizeForCapacity, GroupLevelMetadata.getSizeForCapacity, Bool.false_eq_true,
    if_false, Option.bind_eq_bind]
  simp (disch := omega) only [uint64Add_eq, Option.bind_some]
  rw [metadataBytes, groupCnt]
  congr 1
  omega

theorem metadataBytes_of_getSizeForCapacity (h : v.getSizeForCapacity false = some n) :
    v.metadataBytes = n := by
  simp only [getSizeForCapacity, GroupLevelMetadata.getSizeForCapacity, Bool.false_eq_true,
    if_false, bind_eq_some_iff] at h
  obtain ⟨a, ha, b, hb, c, hc, d, hd, e, he, f, hf, g, hg, h⟩ := h
  have ha := uint64Add_eq_some ha
  have hb := uint64Add_eq_some hb
  have hc := uint64Add_eq_some hc
  have hd := uint64Add_eq_some hd
  have he := uint64Add_eq_some he
  have hf := uint64Add_eq_some hf
  have hg := uint64Add_eq_some hg
  have h := uint64Add_eq_some h
  rw [metadataBytes, groupCnt]
  omega

theorem metadataBytes_removeKey (h : v.record key = some t) :
    (v.removeKey key).metadataBytes ≤ v.metadataBytes := by
  have hlength : (v.removeKey key).lru.length + 1 = v.lru.length := length_removeKey h
  have hgroups : (v.removeKey key).groupCnt ≤ v.groupCnt := v.toLruRecords.groupCnt_removeKey key
  have hbytes : bytesOfKeys (v.removeKey key).keys + key.getKeyLength = bytesOfKeys v.keys :=
    bytesOfKeys_erase h
  have hmul := Nat.mul_le_mul_right (sizeForCapacity T)
    (Nat.le_of_lt (Nat.lt_of_succ_le hlength.le))
  rw [metadataBytes, metadataBytes]
  omega

theorem metadataBytes_insertKey {r : Reward} (hnew : key ∉ v.keys)
    (hbytes : bytesOfKeys v.keys + key.getKeyLength < uint64Limit) :
    (v.insertKey key t r hnew hbytes).metadataBytes ≤ v.metadataBytes + newKeyBytes T key := by
  have hlength : (v.insertKey key t r hnew hbytes).lru.length = v.lru.length + 1 := rfl
  have hgroups : (v.insertKey key t r hnew hbytes).groupCnt ≤ v.groupCnt + 1 :=
    groupCnt_insertKey hnew hbytes
  have hkeys : bytesOfKeys (v.insertKey key t r hnew hbytes).keys =
      key.getKeyLength + bytesOfKeys v.keys := bytesOfKeys_cons key v.keys
  rw [metadataBytes, metadataBytes, newKeyBytes, hlength, hkeys, Nat.succ_mul]
  omega

theorem metadataBytes_of_nil (h : v.lru = []) : v.metadataBytes = 0 := by
  simp only [metadataBytes, groupCnt, groupIds, LruRecords.keys, h,
    bytesOfKeys, length_nil, map_nil, dedup_nil, sum_nil]
  omega

/-- A pass of the loop: it ends within the budget, or drops the key of the least reward. -/
theorem detrackForCapacity_succ (maxBytes fuel : Nat) (hroom : v.metadataBytes < uint64Limit) :
    v.metadataBytes ≤ maxBytes ∧ v.detrackForCapacity maxBytes (fuel + 1) = some v ∨
      maxBytes < v.metadataBytes ∧ ∃ least others, v.rewards = least :: others ∧
        (v.removeKey least.2).lru.length + 1 = v.lru.length ∧
        (v.removeKey least.2).metadataBytes < uint64Limit ∧
        v.detrackForCapacity maxBytes (fuel + 1) =
          (v.removeKey least.2).detrackForCapacity maxBytes fuel := by
  rw [detrackForCapacity, getSizeForCapacity_eq hroom]
  by_cases hsize : v.metadataBytes > maxBytes
  · cases hrewards : v.rewards with
    | nil =>
      -- without rewards there are no keys, and nothing exceeds the budget
      have hlength := v.length_rewards
      rw [hrewards, length_nil] at hlength
      rw [metadataBytes_of_nil (length_eq_zero_iff.1 hlength.symm)] at hsize
      exact absurd hsize (Nat.not_lt_zero _)
    | cons least others =>
      have hkey : least.2 ∈ v.keys := by
        apply v.perm.mem_iff.1
        rw [hrewards]
        exact mem_map_of_mem mem_cons_self
      obtain ⟨t, hr⟩ := exists_record hkey
      have hremove : v.remove least.2 = some (v.removeKey least.2) := by
        rw [remove, hr]
        rfl
      refine .inr ⟨hsize, least, others, rfl, length_removeKey hr,
        (metadataBytes_removeKey hr).trans_lt hroom, ?_⟩
      simp only [some_bind, if_pos hsize, getElem?_cons_zero, hremove]
  · simp only [some_bind, if_neg hsize]
    exact .inl ⟨Nat.not_lt.1 hsize, rfl⟩

/-- The loop that enforces the budget ends and drops keys only. -/
theorem exists_detrackForCapacity (maxBytes : Nat) {fuel : Nat}
    (hroom : v.metadataBytes < uint64Limit) (hfuel : v.lru.length < fuel) :
    ∃ v', v.detrackForCapacity maxBytes fuel = some v' ∧ Part v.sizes v'.sizes := by
  induction fuel generalizing v with
  | zero => exact absurd hfuel (Nat.not_lt_zero _)
  | succ fuel ih =>
    rcases detrackForCapacity_succ maxBytes fuel hroom with
      ⟨-, hpass⟩ | ⟨-, least, others, -, hlength, hleft, hpass⟩
    · exact ⟨v, hpass, .refl _⟩
    · obtain ⟨v', hv', hpart⟩ := ih hleft (by omega)
      have herase := Part.erase v.sizes least.2
      rw [← sizes_removeKey] at herase
      exact ⟨v', hpass.trans hv', herase.trans hpart⟩

variable {isGlobalCached : Bool}

/-- A new object, before the budget is enforced. -/
theorem exists_addKey (edge : EdgeContext) (isNeighborCached : Bool)
    (haccept : ∀ m : T, ∃ m', updateNoValueDynamicMetadata m false isGlobalCached
      added addedRedirected = some m') (hnew : v.sizes key = none)
    (hbytes : bytesOfKeys v.keys + key.getKeyLength < uint64Limit)
    (hsize : objectSize key value ≠ 0) :
    ∃ v', v.addKey edge key value isGlobalCached isNeighborCached added addedRedirected = some v' ∧
      v'.sizes = update v.sizes key (some (objectSize key value)) ∧
      v'.metadataBytes ≤ v.metadataBytes + newKeyBytes T key := by
  have hnotin := sizes_eq_none_iff.1 hnew
  obtain ⟨t, ht⟩ := exists_newRecord isNeighborCached edge
    (assignGroup v.curGroupId v.curGroupKeycnt).1 haccept hsize
  rw [addKey, dif_pos ⟨hnotin, hbytes⟩, ht]
  refine ⟨_, rfl, ?_, metadataBytes_insertKey hnotin hbytes⟩
  rw [toLruRecords_insertKey, sizes_insertKey, (newRecord_spec ht).2]

/-- A new object within a budget; it may be dropped again. -/
theorem exists_addForNewKey (maxBytes : Nat) (edge : EdgeContext) (isNeighborCached : Bool)
    (haccept : ∀ m : T, ∃ m', updateNoValueDynamicMetadata m false isGlobalCached
      added addedRedirected = some m') (hnew : v.sizes key = none)
    (hroom : v.metadataBytes + newKeyBytes T key < uint64Limit) (hsize : objectSize key value ≠ 0) :
    ∃ v', v.addForNewKey (some maxBytes) edge key value isGlobalCached isNeighborCached added
        addedRedirected = some v' ∧
      Part (update v.sizes key (some (objectSize key value))) v'.sizes := by
  have hbytes : bytesOfKeys v.keys + key.getKeyLength < uint64Limit := by
    rw [metadataBytes, newKeyBytes] at hroom
    omega
  obtain ⟨u, hu, hsizes, hle⟩ := exists_addKey edge isNeighborCached haccept hnew hbytes hsize
  obtain ⟨v', hv', hpart⟩ := exists_detrackForCapacity maxBytes (v := u) (by omega)
    (Nat.lt_succ_self u.lru.length)
  refine ⟨v', ?_, hsizes ▸ hpart⟩
  simp only [addForNewKey, hu, afterAddForNewKey, some_bind]
  exact hv'

theorem exists_updateIsGlobalCached {v : TrackedKeys HomoKeyLevelMetadata}
    {t : HomoKeyLevelMetadata} (edge : EdgeContext) (hr : v.record key = some t)
    (hflag : isGlobalCached ≠ t.isGlobalCached) :
    ∃ v', v.updateIsGlobalCached edge key true isGlobalCached = some v' ∧ v'.sizes = v.sizes := by
  have hchange : t.changeIsGlobalCached isGlobalCached =
      some { t with isGlobalCached := isGlobalCached } := require_bind_of hflag _
  simp only [updateIsGlobalCached, require_of, hr, hchange, some_bind, Option.pure_def]
  exact ⟨_, rfl, sizes_setRecord_of_eq hr rfl⟩

theorem exists_updateIsNeighborCached {v : TrackedKeys HeteroKeyLevelMetadata}
    {t : HeteroKeyLevelMetadata} (hr : v.record key = some t) (isNeighborCached : Bool) :
    ∃ v', v.updateIsNeighborCached key isNeighborCached = some v' ∧ v'.sizes = v.sizes := by
  rw [updateIsNeighborCached, hr]
  exact ⟨_, rfl, sizes_setRecord_of_eq hr rfl⟩

end TrackedKeys

/-! ## The small LRU cache -/

namespace LruRecords

variable {w : LruRecords HomoKeyLevelMetadata} {key : Key} {t t' : HomoKeyLevelMetadata}

theorem exists_updatePopularity (edge : EdgeContext) (hr : w.record key = some t)
    (hsize : t.base.objectSize ≠ 0) :
    ∃ w' r, w.updatePopularity edge key t = some (w', r) ∧ w'.sizes = w.sizes := by
  obtain ⟨t', ht⟩ := exists_popularity (m := t) edge hsize
  rw [updatePopularity, ht]
  exact ⟨_, _, rfl, sizes_setRecord_of_eq hr (popularity_keeps ht).2⟩

theorem exists_updateNoValueStats (edge : EdgeContext) {n : Nat} (h : w.sizes key = some n)
    (hsize : n ≠ 0) (isGlobalCached : Bool) :
    ∃ w' r, w.updateNoValueStats edge key isGlobalCached = some (w', r) ∧ w'.sizes = w.sizes := by
  obtain ⟨t, hr, hn⟩ := exists_of_sizes h
  have hn : t.base.objectSize = n := hn
  obtain ⟨t', ht⟩ : ∃ t', t.updateNoValueDynamicMetadata false isGlobalCached 1 = some t' := by
    rw [HomoKeyLevelMetadata.updateNoValueDynamicMetadata, require_of rfl]
    exact ⟨_, rfl⟩
  have hkeeps := (HomoKeyLevelMetadata.noValue_keeps ht).2
  have hset : (w.setRecord key t').record key = some t' := record_setRecord hr
  obtain ⟨w', r, hw', hsizes⟩ := exists_updatePopularity edge
    (record_moveToFront hset) (by rw [hkeeps, hn]; exact hsize)
  refine ⟨w', r, ?_, ?_⟩
  · simp only [updateNoValueStats, hr, ht, some_bind]
    exact hw'
  · rw [hsizes, sizes_moveToFront, sizes_setRecord_of_eq hr hkeeps]

variable {value : Value}

theorem exists_updateValueStats (edge : EdgeContext) {originalValue : Value}
    (h : w.sizes key = some (objectSize key originalValue)) (hsize : objectSize key value ≠ 0) :
    ∃ w' r, w.updateValueStats edge key value originalValue = some (w', r) ∧
      w'.sizes = update w.sizes key (some (objectSize key value)) := by
  obtain ⟨t, hr, hold⟩ := exists_of_sizes h
  obtain ⟨t', ht⟩ := HomoKeyLevelMetadata.exists_value (m := t) (objectSize key value)
  have hold : t.base.objectSize = objectSize key originalValue := hold
  rw [hold] at ht
  have hnew := (HomoKeyLevelMetadata.value_spec ht).2
  have hset : (w.setRecord key t').record key = some t' := record_setRecord hr
  obtain ⟨w', r, hw', hsizes⟩ := exists_updatePopularity edge hset (hnew ▸ hsize)
  refine ⟨w', r, ?_, ?_⟩
  · simp only [updateValueStats, hr, ht, some_bind]
    exact hw'
  · rw [hsizes, sizes_setRecord hr]
    exact congrArg (fun n => update w.sizes key (some n)) hnew

theorem exists_updateIsGlobalCached (edge : EdgeContext) (hr : w.record key = some t)
    {isGlobalCached : Bool} (hflag : isGlobalCached ≠ t.isGlobalCached) :
    ∃ w' r, w.updateIsGlobalCached edge key true isGlobalCached = some (w', r) ∧
      w'.sizes = w.sizes := by
  have hchange : t.changeIsGlobalCached isGlobalCached =
      some { t with isGlobalCached := isGlobalCached } := require_bind_of hflag _
  simp only [updateIsGlobalCached, require_of, hr, hchange, some_bind, Option.pure_def]
  exact ⟨_, _, rfl, sizes_setRecord_of_eq hr rfl⟩

theorem exists_remove {n : Nat} (h : w.sizes key = some n) :
    ∃ w' t, w.remove key = some (w', t) ∧ w'.sizes = update w.sizes key none := by
  obtain ⟨t, hr, -⟩ := exists_of_sizes h
  rw [remove, hr]
  exact ⟨_, _, rfl, sizes_removeKey⟩

/-- The bytes of the small LRU cache. -/
def lruBytes (w : LruRecords HomoKeyLevelMetadata) : Nat :=
  w.lru.length * HomoKeyLevelMetadata.getSizeForCapacity + w.groupCnt * 8 + w.lru.length * 8 +
    2 * bytesOfKeys w.keys

/-- The bytes of the small LRU cache with one key only, which are also the most that a new key
adds. -/
def lruKeyBytes (key : Key) : Nat :=
  HomoKeyLevelMetadata.getSizeForCapacity + 16 + 2 * key.getKeyLength

theorem getSizeForCapacity_eq (h : w.lruBytes < uint64Limit) :
    w.getSizeForCapacity = some w.lruBytes := by
  rw [lruBytes, groupCnt] at h
  simp only [getSizeForCapacity, GroupLevelMetadata.getSizeForCapacity, Option.bind_eq_bind]
  simp (disch := omega) only [uint64Add_eq, Option.bind_some]
  rw [lruBytes, groupCnt]
  congr 1
  omega

theorem lruBytes_of_getSizeForCapacity {n : Nat} (h : w.getSizeForCapacity = some n) :
    w.lruBytes = n := by
  simp only [getSizeForCapacity, GroupLevelMetadata.getSizeForCapacity, bind_eq_some_iff] at h
  obtain ⟨a, ha, b, hb, c, hc, d, hd, e, he, h⟩ := h
  have ha := uint64Add_eq_some ha
  have hb := uint64Add_eq_some hb
  have hc := uint64Add_eq_some hc
  have hd := uint64Add_eq_some hd
  have he := uint64Add_eq_some he
  have h := uint64Add_eq_some h
  rw [lruBytes, groupCnt]
  omega

theorem lruBytes_removeKey (h : w.record key = some t) :
    (w.removeKey key).lruBytes ≤ w.lruBytes := by
  have hlength := length_removeKey h
  have hgroups := w.groupCnt_removeKey key
  have hbytes : bytesOfKeys (w.removeKey key).keys + key.getKeyLength = bytesOfKeys w.keys :=
    bytesOfKeys_erase h
  have hmul := Nat.mul_le_mul_right HomoKeyLevelMetadata.getSizeForCapacity
    (Nat.le_of_lt (Nat.lt_of_succ_le hlength.le))
  rw [lruBytes, lruBytes]
  omega

theorem lruBytes_insertKey (hnew : key ∉ w.keys)
    (hbytes : bytesOfKeys w.keys + key.getKeyLength < uint64Limit) :
    (w.insertKey key t hnew hbytes).lruBytes ≤ w.lruBytes + lruKeyBytes key := by
  have hlength : (w.insertKey key t hnew hbytes).lru.length = w.lru.length + 1 := rfl
  have hgroups := groupCnt_insertKey (t := t) hnew hbytes
  have hkeys : bytesOfKeys (w.insertKey key t hnew hbytes).keys =
      key.getKeyLength + bytesOfKeys w.keys := bytesOfKeys_cons key w.keys
  rw [lruBytes, lruBytes, lruKeyBytes, hlength, hkeys, Nat.succ_mul]
  omega

theorem lruBytes_of_nil (h : w.lru = []) : w.lruBytes = 0 := by
  simp only [lruBytes, groupCnt, groupIds, keys, h, bytesOfKeys, length_nil, map_nil,
    dedup_nil, sum_nil]
  omega

theorem lruBytes_singleton (h : w.lru = [(key, t)]) : w.lruBytes = lruKeyBytes key := by
  have hgroups : w.groupCnt = 1 := by
    rw [groupCnt, groupIds, h, map_cons, map_nil,
      dedup_cons_of_notMem not_mem_nil, dedup_nil]
    rfl
  simp only [lruBytes, lruKeyBytes, hgroups, keys, h, bytesOfKeys, length_cons,
    length_nil, map_cons, map_nil, sum_cons, sum_nil]
  omega

/-- A pass of the loop: it ends within the budget, or drops the last key. -/
theorem eraseForCapacity_succ (maxBytes fuel : Nat) (hroom : w.lruBytes < uint64Limit) :
    w.lruBytes ≤ maxBytes ∧ w.eraseForCapacity maxBytes (fuel + 1) = some w ∨
      maxBytes < w.lruBytes ∧ ∃ last, w.keys.getLast? = some last ∧
        (w.removeKey last).lru.length + 1 = w.lru.length ∧
        (w.removeKey last).lruBytes < uint64Limit ∧
        w.eraseForCapacity maxBytes (fuel + 1) =
          (w.removeKey last).eraseForCapacity maxBytes fuel := by
  rw [eraseForCapacity, getSizeForCapacity_eq hroom]
  by_cases hsize : w.lruBytes > maxBytes
  · cases hlast : w.keys.getLast? with
    | none =>
      -- without keys nothing exceeds the budget
      rw [lruBytes_of_nil (map_eq_nil_iff.1 (getLast?_eq_none_iff.1 hlast))] at hsize
      exact absurd hsize (Nat.not_lt_zero _)
    | some last =>
      obtain ⟨t, hr⟩ := exists_record (mem_of_getLast? hlast)
      have hremove : w.remove last = some (w.removeKey last, t) := by
        rw [remove, hr]
        rfl
      refine .inr ⟨hsize, last, rfl, length_removeKey hr,
        (lruBytes_removeKey hr).trans_lt hroom, ?_⟩
      simp only [some_bind, if_pos hsize, hremove]
  · simp only [some_bind, if_neg hsize]
    exact .inl ⟨Nat.not_lt.1 hsize, rfl⟩

/-- The loop that enforces the budget ends and drops keys only, but not the first key if that alone
is within the budget. -/
theorem exists_eraseForCapacity (maxBytes : Nat) {fuel : Nat} (hroom : w.lruBytes < uint64Limit)
    (hfuel : w.lru.length < fuel) :
    ∃ w', w.eraseForCapacity maxBytes fuel = some w' ∧ Part w.sizes w'.sizes ∧
      ∀ key, w.keys.head? = some key → lruKeyBytes key ≤ maxBytes → w'.sizes key = w.sizes key := by
  induction fuel generalizing w with
  | zero => exact absurd hfuel (Nat.not_lt_zero _)
  | succ fuel ih =>
    rcases eraseForCapacity_succ maxBytes fuel hroom with
      ⟨-, hpass⟩ | ⟨hsize, last, hlast, hlength, hleft, hpass⟩
    · exact ⟨w, hpass, .refl _, fun _ _ _ => rfl⟩
    · obtain ⟨w', hw', hpart, hfirst⟩ := ih hleft (by omega)
      refine ⟨w', hpass.trans hw', ?_, fun key hhead hkey => ?_⟩
      · rw [sizes_removeKey] at hpart
        exact (Part.erase w.sizes last).trans hpart
      · obtain ⟨rest, hrest⟩ := head?_eq_some_iff.1 hhead
        -- the key that is dropped is not the first one, or the cache would be within the budget
        have hne : key ≠ last := by
          rintro rfl
          have hkeys : (key :: rest).Nodup := hrest ▸ w.nodup
          rw [hrest] at hlast
          cases rest with
          | nil =>
            obtain ⟨pair, hpair, hfst⟩ := map_eq_singleton_iff.1 hrest
            subst hfst
            have hsingleton : w.lruBytes = lruKeyBytes pair.1 := lruBytes_singleton hpair
            rw [hsingleton] at hsize
            exact absurd hkey (Nat.not_le.2 hsize)
          | cons k more =>
            rw [getLast?_cons_cons] at hlast
            exact (nodup_cons.1 hkeys).1 (mem_of_getLast? hlast)
        have hhead' : (w.removeKey last).keys.head? = some key := by
          rw [keys_removeKey, hrest, filter_cons, if_pos (decide_eq_true hne), head?_cons]
        rw [hfirst key hhead' hkey, sizes_removeKey, update_of_ne hne]

/-- The popularity of a new object: one request for all its bytes. -/
def newPopularity (r : Rounding) (key : Key) (value : Value) : Popularity :=
  r (r (1 : Nat) / r (objectSize key value))

/-- The record of a new object. -/
def newLruRecord (edge : EdgeContext) (groupId : Nat) (key : Key) (value : Value)
    (isGlobalCached : Bool) : HomoKeyLevelMetadata where
  base := {
    groupId := groupId
    localFrequency := 1
    objectSize := objectSize key value
    localPopularity := newPopularity edge.round key value }
  isGlobalCached := isGlobalCached

/-- The reward that the small LRU cache returns for a new object. -/
def newReward (edge : EdgeContext) (key : Key) (value : Value) (isGlobalCached : Bool) : Reward :=
  calcLocalUncachedReward edge.round edge.weights (newPopularity edge.round key value)
    isGlobalCached 0

theorem newRecord_eq (edge : EdgeContext) (groupId : Nat) (isGlobalCached : Bool)
    (hsize : objectSize key value ≠ 0) :
    newRecord edge groupId key value isGlobalCached false 1 1 =
      some (newLruRecord edge groupId key value isGlobalCached) := by
  have hpop : calculatePopularity edge.round 1 (objectSize key value) =
      some (newPopularity edge.round key value) := require_bind_of hsize _
  show HomoKeyLevelMetadata.calculateAndUpdatePopularity edge
    { base := { groupId := groupId, localFrequency := 1, objectSize := objectSize key value }
      isGlobalCached := isGlobalCached } = _
  rw [HomoKeyLevelMetadata.calculateAndUpdatePopularity,
    KeyLevelMetadataBase.calculateLocalPopularity, hpop]
  rfl

/-- A new object in the small LRU cache, with its reward; it may be dropped again, but not if its
metadata alone is within the budget. -/
theorem exists_addForNewKey (maxBytes : Nat) (edge : EdgeContext) (isGlobalCached : Bool)
    (hnew : w.sizes key = none) (hroom : w.lruBytes + lruKeyBytes key < uint64Limit)
    (hsize : objectSize key value ≠ 0) :
    ∃ w', w.addForNewKey maxBytes edge key value isGlobalCached =
        some (w', newReward edge key value isGlobalCached) ∧
      Part (update w.sizes key (some (objectSize key value))) w'.sizes ∧
      (lruKeyBytes key ≤ maxBytes → w'.sizes key = some (objectSize key value)) := by
  have hnotin := sizes_eq_none_iff.1 hnew
  have hbytes : bytesOfKeys w.keys + key.getKeyLength < uint64Limit := by
    rw [lruBytes, lruKeyBytes] at hroom
    omega
  obtain ⟨t, ht⟩ : ∃ t, t = newLruRecord edge (assignGroup w.curGroupId w.curGroupKeycnt).1 key
    value isGlobalCached := ⟨_, rfl⟩
  have hadd : w.addKey edge key value isGlobalCached = some (w.insertKey key t hnotin hbytes,
      newReward edge key value isGlobalCached) := by
    rw [addKey, dif_pos ⟨hnotin, hbytes⟩, newRecord_eq edge _ isGlobalCached hsize, ht]
    rfl
  have hsizes : (w.insertKey key t hnotin hbytes).sizes =
      update w.sizes key (some (objectSize key value)) := by
    rw [sizes_insertKey, ht]
    rfl
  obtain ⟨w', hw', hpart, hfirst⟩ := exists_eraseForCapacity maxBytes
    (Nat.lt_of_le_of_lt (lruBytes_insertKey (t := t) hnotin hbytes) hroom) (Nat.lt_succ_self _)
  refine ⟨w', ?_, hsizes ▸ hpart, fun hkey => ?_⟩
  · rw [addForNewKey, hadd]
    simp only [some_bind, hw', Option.pure_def]
  · rw [hfirst key rfl hkey, hsizes, update_self]

end LruRecords

/-! ## The containers -/

namespace CacheMetadataBase

section General

variable {T : Type} [KeyLevelMetadata T] {s : CacheMetadataBase T} {f : Key → Option Nat}
  {key : Key} {n : Nat}

/-- The container stands for tracked keys with the given sizes. -/
def Tracks (s : CacheMetadataBase T) (f : Key → Option Nat) : Prop :=
  ∃ v : TrackedKeys T, Represents s v ∧ v.sizes = f

theorem Tracks.empty : Tracks (CacheMetadataBase.empty : CacheMetadataBase T) fun _ => none :=
  ⟨_, Represents.empty, rfl⟩

theorem Tracks.isKeyExist (h : Tracks s f) (key : Key) : s.isKeyExist key = (f key).isSome := by
  obtain ⟨v, hv, rfl⟩ := h
  rw [Bool.eq_iff_iff, hv.exists_iff, Option.isSome_iff_ne_none, ne_eq, sizes_eq_none_iff,
    not_not]

theorem Tracks.getObjectSize (h : Tracks s f) (key : Key) : s.getObjectSize key = f key := by
  obtain ⟨v, hv, rfl⟩ := h
  rw [CacheMetadataBase.getObjectSize, hv.getkeyLevelMetadata, sizes]
  cases v.record key <;> rfl

/-- An access to a tracked object that has bytes. -/
theorem Tracks.updateNoValueStats (h : Tracks s f) (edge : EdgeContext) {update : T → Option T}
    (hkeeps : ∀ t t', update t = some t' →
      getGroupId t' = getGroupId t ∧
        KeyLevelMetadata.getObjectSize t' = KeyLevelMetadata.getObjectSize t)
    (haccepts : ∀ t, ∃ t', update t = some t') (hf : f key = some n) (hn : n ≠ 0) :
    ∃ s', s.updateNoValueStats edge key update = some s' ∧ Tracks s' f := by
  obtain ⟨v, hv, rfl⟩ := h
  obtain ⟨t, hr, ht⟩ := exists_of_sizes hf
  obtain ⟨t', hupdate⟩ := haccepts t
  obtain ⟨v', hv', hsizes⟩ := exists_updateNoValueStats edge hr hupdate
    (hkeeps t t' hupdate).2 (ht ▸ hn)
  obtain ⟨s', hs', hrep⟩ := exists_of_rel_right
    (hv.updateNoValueStats edge key fun t t' ht => (hkeeps t t' ht).1) hv'
  exact ⟨s', hs', v', hrep, hsizes⟩

theorem Tracks.updateValueStatsForExistingKey (h : Tracks s f) (edge : EdgeContext)
    {value originalValue : Value} (hf : f key = some (objectSize key originalValue))
    (hsize : objectSize key value ≠ 0) :
    ∃ s', s.updateValueStatsForExistingKey edge key value originalValue = some s' ∧
      Tracks s' (update f key (some (objectSize key value))) := by
  obtain ⟨v, hv, rfl⟩ := h
  obtain ⟨v', hv', hsizes⟩ := exists_updateValueStats edge hf hsize
  obtain ⟨s', hs', hrep⟩ := exists_of_rel_right
    (hv.updateValueStatsForExistingKey edge key value originalValue) hv'
  exact ⟨s', hs', v', hrep, hsizes⟩

theorem Tracks.removeForExistingKey (h : Tracks s f) (hf : f key = some n) :
    ∃ s', s.removeForExistingKey key = some s' ∧ Tracks s' (update f key none) := by
  obtain ⟨v, hv, rfl⟩ := h
  obtain ⟨v', hv', hsizes⟩ := exists_remove hf
  obtain ⟨s', hs', hrep⟩ := exists_of_rel_right (hv.removeForExistingKey key) hv'
  exact ⟨s', hs', v', hrep, hsizes⟩

end General

/-! ### The cached keys -/

section Cached

variable {s : CacheMetadataBase HeteroKeyLevelMetadata} {f : Key → Option Nat} {key : Key} {n : Nat}

theorem exists_noValue (m : HeteroKeyLevelMetadata) (isRedirected : Bool)
    (added addedRedirected : Nat) :
    ∃ m', m.updateNoValueDynamicMetadata isRedirected true added addedRedirected = some m' := by
  rw [HeteroKeyLevelMetadata.updateNoValueDynamicMetadata, require_of rfl]
  cases isRedirected <;> exact ⟨_, rfl⟩

theorem Tracks.accessCached (h : Tracks s f) (edge : EdgeContext) (isRedirected : Bool)
    (hf : f key = some n) (hn : n ≠ 0) :
    ∃ s', s.updateNoValueStatsForExistingKey edge key isRedirected true = some s' ∧ Tracks s' f :=
  h.updateNoValueStats edge (fun _ _ => KeyLevelMetadata.noValue_keeps)
    (fun t => exists_noValue t isRedirected 1 1) hf hn

theorem Tracks.accessCachedP2p (h : Tracks s f) (edge : EdgeContext) (redirectedReward : Nat)
    (hf : f key = some n) (hn : n ≠ 0) :
    ∃ s', s.updateNoValueStatsForExistingKeyP2p edge key true true redirectedReward = some s' ∧
      Tracks s' f := by
  rw [updateNoValueStatsForExistingKeyP2p, require_of rfl]
  exact h.updateNoValueStats edge (fun _ _ => KeyLevelMetadata.noValue_keeps)
    (fun t => exists_noValue t true 0 redirectedReward) hf hn

/-- A new cached object; the cached keys have no budget. -/
theorem Tracks.addCached (h : Tracks s f) (edge : EdgeContext) {value : Value}
    (isNeighborCached : Bool) (hf : f key = none)
    (hbytes : s.perkeyLookupTableKeySize + key.getKeyLength < uint64Limit)
    (hsize : objectSize key value ≠ 0) :
    ∃ s', s.addForNewKey none edge key value true isNeighborCached 1 1 = some s' ∧
      Tracks s' (update f key (some (objectSize key value))) := by
  obtain ⟨v, hv, rfl⟩ := h
  rw [hv.tableBytes] at hbytes
  obtain ⟨v', hv', hsizes, -⟩ := exists_addKey edge isNeighborCached
    (fun m => exists_noValue m false 1 1) hf hbytes hsize
  have hadd : v.addForNewKey none edge key value true isNeighborCached 1 1 = some v' := by
    rw [TrackedKeys.addForNewKey, hv']
    rfl
  obtain ⟨s', hs', hrep⟩ := exists_of_rel_right
    (hv.addForNewKey none edge key value true isNeighborCached 1 1) hadd
  exact ⟨s', hs', v', hrep, hsizes⟩

theorem Tracks.updateIsNeighborCached (h : Tracks s f) (isNeighborCached : Bool)
    (hf : f key = some n) :
    ∃ s', s.updateIsNeighborCachedForExistingKey key isNeighborCached = some s' ∧ Tracks s' f := by
  obtain ⟨v, hv, rfl⟩ := h
  obtain ⟨t, hr, -⟩ := exists_of_sizes hf
  obtain ⟨v', hv', hsizes⟩ := exists_updateIsNeighborCached hr isNeighborCached
  obtain ⟨s', hs', hrep⟩ := exists_of_rel_right (hv.updateIsNeighborCached key isNeighborCached) hv'
  exact ⟨s', hs', v', hrep, hsizes⟩

end Cached

/-! ### The uncached keys -/

section Uncached

variable {s : CacheMetadataBase HomoKeyLevelMetadata} {f : Key → Option Nat} {key : Key} {n : Nat}

theorem exists_noValueUncached (m : HomoKeyLevelMetadata) (isGlobalCached : Bool) (added : Nat) :
    ∃ m', m.updateNoValueDynamicMetadata false isGlobalCached added = some m' := by
  rw [HomoKeyLevelMetadata.updateNoValueDynamicMetadata, require_of rfl]
  exact ⟨_, rfl⟩

theorem Tracks.accessUncached (h : Tracks s f) (edge : EdgeContext) (isGlobalCached : Bool)
    (hf : f key = some n) (hn : n ≠ 0) :
    ∃ s', s.updateNoValueStatsForExistingKey edge key false isGlobalCached = some s' ∧
      Tracks s' f :=
  h.updateNoValueStats edge (fun _ _ => KeyLevelMetadata.noValue_keeps)
    (fun t => exists_noValueUncached t isGlobalCached 1) hf hn

theorem Tracks.exists_isGlobalCached (h : Tracks s f) (hf : f key = some n) :
    ∃ isGlobalCached, s.isGlobalCachedForExistingKey key = some isGlobalCached := by
  obtain ⟨v, hv, rfl⟩ := h
  obtain ⟨t, hr, -⟩ := exists_of_sizes hf
  refine ⟨t.isGlobalCached, ?_⟩
  rw [isGlobalCachedForExistingKey, hv.getkeyLevelMetadata, hr]
  rfl

/-- A get response for a tracked key with another flag. -/
theorem Tracks.updateIsGlobalCached (h : Tracks s f) (edge : EdgeContext) (hf : f key = some n)
    {original isGlobalCached : Bool}
    (horiginal : s.isGlobalCachedForExistingKey key = some original)
    (hflag : isGlobalCached ≠ original) :
    ∃ s', s.updateIsGlobalCachedForExistingKey edge key true isGlobalCached = some s' ∧
      Tracks s' f := by
  obtain ⟨v, hv, rfl⟩ := h
  obtain ⟨t, hr, -⟩ := exists_of_sizes hf
  rw [isGlobalCachedForExistingKey, hv.getkeyLevelMetadata, hr] at horiginal
  cases horiginal
  obtain ⟨v', hv', hsizes⟩ := TrackedKeys.exists_updateIsGlobalCached edge hr hflag
  obtain ⟨s', hs', hrep⟩ := exists_of_rel_right
    (hv.updateIsGlobalCached edge key true isGlobalCached) hv'
  exact ⟨s', hs', v', hrep, hsizes⟩

/-- A new uncached object within a budget; other keys or the new one may be dropped. -/
theorem Tracks.addUncached (h : Tracks s f) (maxBytes : Nat) (edge : EdgeContext) {value : Value}
    (isGlobalCached : Bool) (added : Nat) (hf : f key = none) {bytes : Nat}
    (hbytes : s.getSizeForCapacity false = some bytes)
    (hroom : bytes + newKeyBytes HomoKeyLevelMetadata key < uint64Limit)
    (hsize : objectSize key value ≠ 0) :
    ∃ s' g, s.addForNewKey (some maxBytes) edge key value isGlobalCached false added 1 = some s' ∧
      Tracks s' g ∧ Part (update f key (some (objectSize key value))) g := by
  obtain ⟨v, hv, rfl⟩ := h
  rw [hv.getSizeForCapacity] at hbytes
  rw [← metadataBytes_of_getSizeForCapacity hbytes] at hroom
  obtain ⟨v', hv', hpart⟩ := exists_addForNewKey maxBytes edge false
    (fun m => exists_noValueUncached m isGlobalCached added) hf hroom hsize
  obtain ⟨s', hs', hrep⟩ := exists_of_rel_right
    (hv.addForNewKey (some maxBytes) edge key value isGlobalCached false added 1) hv'
  exact ⟨s', v'.sizes, hs', ⟨v', hrep, rfl⟩, hpart⟩

end Uncached

end CacheMetadataBase

namespace LocalUncachedLru

variable {s : LocalUncachedLru} {f : Key → Option Nat} {key : Key} {n : Nat}

/-- The small LRU cache stands for records with the given sizes. -/
def Tracks (s : LocalUncachedLru) (f : Key → Option Nat) : Prop :=
  ∃ w : LruRecords HomoKeyLevelMetadata, s.Represents w ∧ w.sizes = f

theorem Tracks.empty : Tracks LocalUncachedLru.empty fun _ => none :=
  ⟨_, Represents.empty, rfl⟩

theorem Tracks.isKeyExist (h : Tracks s f) (key : Key) : s.isKeyExist key = (f key).isSome := by
  obtain ⟨w, hw, rfl⟩ := h
  rw [Bool.eq_iff_iff, hw.exists_iff, Option.isSome_iff_ne_none, ne_eq, sizes_eq_none_iff,
    not_not]

theorem Tracks.getObjectSize (h : Tracks s f) (key : Key) : s.getObjectSize key = f key := by
  obtain ⟨w, hw, rfl⟩ := h
  rw [LocalUncachedLru.getObjectSize, hw.getkeyLevelMetadata, sizes]
  cases w.record key <;> rfl

theorem Tracks.exists_isGlobalCached (h : Tracks s f) (hf : f key = some n) :
    ∃ isGlobalCached, s.isGlobalCachedForExistingKey key = some isGlobalCached := by
  obtain ⟨w, hw, rfl⟩ := h
  obtain ⟨t, hr, -⟩ := exists_of_sizes hf
  refine ⟨t.isGlobalCached, ?_⟩
  rw [isGlobalCachedForExistingKey, hw.getkeyLevelMetadata, hr]
  rfl

theorem Tracks.updateNoValueStats (h : Tracks s f) (edge : EdgeContext) (isGlobalCached : Bool)
    (hf : f key = some n) (hn : n ≠ 0) :
    ∃ s' r, s.updateNoValueStatsForExistingKey edge key isGlobalCached = some (s', r) ∧
      Tracks s' f := by
  obtain ⟨w, hw, rfl⟩ := h
  obtain ⟨w', r, hw', hsizes⟩ := exists_updateNoValueStats edge hf hn isGlobalCached
  obtain ⟨⟨s', r'⟩, hs', hrep, -⟩ := exists_of_rel_right
    (hw.updateNoValueStats edge key isGlobalCached) hw'
  exact ⟨s', r', hs', w', hrep, hsizes⟩

theorem Tracks.updateValueStats (h : Tracks s f) (edge : EdgeContext) {value originalValue : Value}
    (hf : f key = some (objectSize key originalValue)) (hsize : objectSize key value ≠ 0) :
    ∃ s' r, s.updateValueStatsForExistingKey edge key value originalValue = some (s', r) ∧
      Tracks s' (update f key (some (objectSize key value))) := by
  obtain ⟨w, hw, rfl⟩ := h
  obtain ⟨w', r, hw', hsizes⟩ := exists_updateValueStats edge hf hsize
  obtain ⟨⟨s', r'⟩, hs', hrep, -⟩ := exists_of_rel_right
    (hw.updateValueStats edge key value originalValue) hw'
  exact ⟨s', r', hs', w', hrep, hsizes⟩

theorem Tracks.updateIsGlobalCached (h : Tracks s f) (edge : EdgeContext) (hf : f key = some n)
    {original isGlobalCached : Bool}
    (horiginal : s.isGlobalCachedForExistingKey key = some original)
    (hflag : isGlobalCached ≠ original) :
    ∃ s' r, s.updateIsGlobalCachedForExistingKey edge key true isGlobalCached = some (s', r) ∧
      Tracks s' f := by
  obtain ⟨w, hw, rfl⟩ := h
  obtain ⟨t, hr, -⟩ := exists_of_sizes hf
  rw [isGlobalCachedForExistingKey, hw.getkeyLevelMetadata, hr] at horiginal
  cases horiginal
  obtain ⟨w', r, hw', hsizes⟩ := exists_updateIsGlobalCached edge hr hflag
  obtain ⟨⟨s', r'⟩, hs', hrep, -⟩ := exists_of_rel_right
    (hw.updateIsGlobalCached edge key true isGlobalCached) hw'
  exact ⟨s', r', hs', w', hrep, hsizes⟩

theorem Tracks.removeForExistingKey (h : Tracks s f) (hf : f key = some n) :
    ∃ s' metadata, s.removeForExistingKey key = some (s', metadata) ∧
      Tracks s' (update f key none) := by
  obtain ⟨w, hw, rfl⟩ := h
  obtain ⟨w', t, hw', hsizes⟩ := exists_remove hf
  obtain ⟨⟨s', t'⟩, hs', hrep, -⟩ := exists_of_rel_right (hw.removeForExistingKey key) hw'
  exact ⟨s', t', hs', w', hrep, hsizes⟩

/-- A new object in the small LRU cache, which keeps it if its metadata alone is within the
budget. -/
theorem Tracks.addForNewKey (h : Tracks s f) (maxBytes : Nat) (edge : EdgeContext) {value : Value}
    (isGlobalCached : Bool) (hf : f key = none) {bytes : Nat}
    (hbytes : s.getSizeForCapacity = some bytes)
    (hroom : bytes + lruKeyBytes key < uint64Limit) (hsize : objectSize key value ≠ 0) :
    ∃ s' g, s.addForNewKey maxBytes edge key value isGlobalCached =
        some (s', newReward edge key value isGlobalCached) ∧
      Tracks s' g ∧ Part (update f key (some (objectSize key value))) g ∧
      (lruKeyBytes key ≤ maxBytes → g key = some (objectSize key value)) := by
  obtain ⟨w, hw, rfl⟩ := h
  rw [hw.getSizeForCapacity] at hbytes
  rw [← lruBytes_of_getSizeForCapacity hbytes] at hroom
  obtain ⟨w', hw', hpart, hkept⟩ := exists_addForNewKey maxBytes edge isGlobalCached hf
    hroom hsize
  obtain ⟨⟨s', r'⟩, hs', hrep, hreward⟩ := exists_of_rel_right
    (hw.addForNewKey maxBytes edge key value isGlobalCached) hw'
  cases hreward
  exact ⟨s', w'.sizes, hs', ⟨w', hrep, rfl⟩, hpart, hkept⟩

end LocalUncachedLru

end Covered.Cache
