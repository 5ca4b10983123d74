import Covered.Cache.ArcCachePolicy
import Covered.Lib.SizedLists

/-!
# Representation and victim choice of the ARC policy

Every function of the policy is made of a few moves: an item leaves a list, an item enters a list,
an entry leaves the lookup map. `Counted` is what the counters have to do with the lists and with
the lookup map, whether or not these two agree; every move keeps it, and no move cuts a subtraction
off. The agreement is `Indexes`, with one rule for each combination of moves.

`Keeps` says what an operation does to the keys: no other key becomes a ghost, and no other cached
key is lost. The run invariant needs nothing else to see that an admitted key is not a ghost and
that a returned victim is still cached. `representation_of_runs` is the result for every run.
-/

set_option autoImplicit false

namespace Covered.Cache.Arc

open Common Lib Lib.Checked Lib.Execution ArcCachePolicy UnorderedMap LinkedList Function
open Option hiding bind_eq_some_iff

variable {s s' : ArcCachePolicy} {i j it : Nat} {key k : Key} {item : ArcDataItem}
  {ghost : ArcGhostItem} {entry : ArcKeyLookupIter}

/-! ## Lists and lookup map -/

theorem keyAt_data : s.keyAt ⟨i, false, it⟩ = ((s.dataList i).get it).map ArcDataItem.key := rfl

theorem keyAt_ghost : s.keyAt ⟨i, true, it⟩ = ((s.ghostList i).get it).map ArcGhostItem.key := rfl

/-- Two assignments of keys to places agree if they do on both kinds of lists. -/
theorem keyAt_ext {get : ArcKeyLookupIter → Option Key}
    (hdata : ∀ j it', ((s.dataList j).get it').map ArcDataItem.key = get ⟨j, false, it'⟩)
    (hghost : ∀ j it', ((s.ghostList j).get it').map ArcGhostItem.key = get ⟨j, true, it'⟩) :
    s.keyAt = get := by
  funext ⟨j, isGhost, it'⟩
  cases isGhost with
  | true => exact hghost j it'
  | false => exact hdata j it'

theorem dataList_eraseData : (s.eraseData i it).dataList j =
    if j = i then (s.dataList i).erase it else s.dataList j :=
  update_apply s.dataList i _ j

theorem ghostList_eraseGhost : (s.eraseGhost i it).ghostList j =
    if j = i then (s.ghostList i).erase it else s.ghostList j :=
  update_apply s.ghostList i _ j

theorem dataList_pushFrontData : (s.pushFrontData item).dataList j =
    if j = item.lruId then (s.dataList item.lruId).pushFront item else s.dataList j :=
  update_apply s.dataList item.lruId _ j

theorem ghostList_pushFrontGhost : (s.pushFrontGhost ghost).ghostList j =
    if j = ghost.lruId then (s.ghostList ghost.lruId).pushFront ghost else s.ghostList j :=
  update_apply s.ghostList ghost.lruId _ j

theorem keyAt_eraseData :
    (s.eraseData i it).keyAt = update s.keyAt ⟨i, false, it⟩ none := by
  refine keyAt_ext (fun j it' => ?_) fun j it' => ?_
  · rw [update_apply, keyAt_data, dataList_eraseData]
    grind [get_erase]
  · rw [update_of_ne (by simp)]
    rfl

theorem keyAt_eraseGhost :
    (s.eraseGhost i it).keyAt = update s.keyAt ⟨i, true, it⟩ none := by
  refine keyAt_ext (fun j it' => ?_) fun j it' => ?_
  · rw [update_of_ne (by simp)]
    rfl
  · rw [update_apply, keyAt_ghost, ghostList_eraseGhost]
    grind [get_erase]

theorem keyAt_pushFrontData : (s.pushFrontData item).keyAt = update s.keyAt
    ⟨item.lruId, false, (s.dataList item.lruId).next⟩ (some item.key) := by
  refine keyAt_ext (fun j it' => ?_) fun j it' => ?_
  · rw [update_apply, keyAt_data, dataList_pushFrontData]
    grind [get_pushFront]
  · rw [update_of_ne (by simp)]
    rfl

theorem keyAt_pushFrontGhost (s : ArcCachePolicy) (ghost : ArcGhostItem) :
    (s.pushFrontGhost ghost).keyAt = update s.keyAt
    ⟨ghost.lruId, true, (s.ghostList ghost.lruId).next⟩ (some ghost.key) := by
  refine keyAt_ext (fun j it' => ?_) fun j it' => ?_
  · rw [update_of_ne (by simp)]
    rfl
  · rw [update_apply, keyAt_ghost, ghostList_pushFrontGhost]
    grind [get_pushFront]

theorem keyAt_next : s.keyAt ⟨i, false, (s.dataList i).next⟩ = none := by
  rw [keyAt_data, get_next, map_none]

theorem keyAt_nextGhost : s.keyAt ⟨i, true, (s.ghostList i).next⟩ = none := by
  rw [keyAt_ghost, get_next, map_none]

theorem next_eraseData : ((s.eraseData i it).dataList j).next = (s.dataList j).next := by
  rw [dataList_eraseData]
  split
  · next hj => rw [hj]; rfl
  · rfl

/-! ## Counters -/

/-- The numbers of the LRU lists. -/
def lruIds : Finset Nat := {1, 2}

theorem mem_lruIds : i ∈ lruIds ↔ i = 1 ∨ i = 2 := by
  rw [lruIds, Finset.mem_insert, Finset.mem_singleton]

/-- Bytes of the four lists. -/
def listBytes (s : ArcCachePolicy) : Nat :=
  totalBytes ArcDataItem.getSizeForCapacity lruIds s.dataList +
    totalBytes ArcGhostItem.getSizeForCapacity lruIds s.ghostList

/-- The counters are the sums of the sizes; `r` are the bytes of the total size that are not in the
lists. -/
structure Counted (r : Nat) (s : ArcCachePolicy) : Prop where
  data : SizedLists ArcDataItem.getSizeForCapacity ArcDataItem.lruId lruIds s.dataList s.dataSize
  ghost : SizedLists ArcGhostItem.getSizeForCapacity ArcGhostItem.lruId lruIds s.ghostList
    s.ghostSize
  size : s.size = listBytes s + r
  notClamped : s.clamped = false
  bounded : s.size < uint64Limit

variable {r bytes : Nat}

theorem Counted.dataSize_le (h : Counted r s) (hi : i ∈ lruIds) : s.dataSize i + r ≤ s.size := by
  have hle := h.data.size_le_total hi
  rw [h.size, listBytes]
  omega

theorem Counted.ghostSize_le (h : Counted r s) (hi : i ∈ lruIds) : s.ghostSize i + r ≤ s.size := by
  have hle := h.ghost.size_le_total hi
  rw [h.size, listBytes]
  omega

/-- The state after an object has left its list. -/
def withoutData (s : ArcCachePolicy) (i it bytes : Nat) : ArcCachePolicy :=
  ({ s with
    dataSize := Function.update s.dataSize i (s.dataSize i - bytes)
    size := s.size - bytes }).eraseData i it

/-- The state after a ghost has left its list. -/
def withoutGhost (s : ArcCachePolicy) (i it bytes : Nat) : ArcCachePolicy :=
  ({ s with
    ghostSize := Function.update s.ghostSize i (s.ghostSize i - bytes)
    size := s.size - bytes }).eraseGhost i it

/-- The state after an object has entered its list. -/
def withData (s : ArcCachePolicy) (item : ArcDataItem) : ArcCachePolicy :=
  ({ s with
    dataSize := Function.update s.dataSize item.lruId
      (s.dataSize item.lruId + item.getSizeForCapacity)
    size := s.size + item.getSizeForCapacity }).pushFrontData item

/-- The state after a ghost has entered its list. -/
def withGhost (s : ArcCachePolicy) (ghost : ArcGhostItem) : ArcCachePolicy :=
  ({ s with
    ghostSize := Function.update s.ghostSize ghost.lruId
      (s.ghostSize ghost.lruId + ghost.getSizeForCapacity)
    size := s.size + ghost.getSizeForCapacity }).pushFrontGhost ghost

section Counted

variable (h : Counted r s)
include h

/-- The bytes of an object are taken off without a cut. -/
theorem Counted.decreaseData (hget : (s.dataList i).get it = some item) :
    s.decreaseDataAndTotalSize item.getSizeForCapacity i = some { s with
      dataSize := update s.dataSize i (s.dataSize i - item.getSizeForCapacity)
      size := s.size - item.getSizeForCapacity } := by
  have hi := (h.data.mem i it item hget).2
  have hle := h.data.le_size hget
  have hlist := h.dataSize_le hi
  have hdata : ¬ s.dataSize i < item.getSizeForCapacity := by omega
  have htotal : ¬ s.size < item.getSizeForCapacity := by omega
  simp only [decreaseDataAndTotalSize, decreaseTotalSize, require_bind (mem_lruIds.1 hi),
    clamped_sub, pure_def, hdata, htotal, decide_false, Bool.or_false]

/-- The bytes of a ghost are taken off without a cut. -/
theorem Counted.decreaseGhost (hget : (s.ghostList i).get it = some ghost) :
    s.decreaseGhostAndTotalSize ghost.getSizeForCapacity i = some { s with
      ghostSize := update s.ghostSize i (s.ghostSize i - ghost.getSizeForCapacity)
      size := s.size - ghost.getSizeForCapacity } := by
  have hi := (h.ghost.mem i it ghost hget).2
  have hle := h.ghost.le_size hget
  have hlist := h.ghostSize_le hi
  have hghost : ¬ s.ghostSize i < ghost.getSizeForCapacity := by omega
  have htotal : ¬ s.size < ghost.getSizeForCapacity := by omega
  simp only [decreaseGhostAndTotalSize, decreaseTotalSize, require_bind (mem_lruIds.1 hi),
    clamped_sub, pure_def, hghost, htotal, decide_false, Bool.or_false]

/-- The bytes of an object are put on without a wrap. -/
theorem Counted.increaseData (bytes : Nat) (hi : i ∈ lruIds)
    (hroom : s.size + bytes < uint64Limit) :
    s.increaseDataAndTotalSize bytes i = some { s with
      dataSize := update s.dataSize i (s.dataSize i + bytes)
      size := s.size + bytes } := by
  have hlist := h.dataSize_le hi
  have hdata : s.dataSize i + bytes < uint64Limit := by omega
  simp only [increaseDataAndTotalSize, increaseTotalSize, require_bind (mem_lruIds.1 hi),
    Nat.mod_eq_of_lt hdata, Nat.mod_eq_of_lt hroom, pure_def]

/-- The bytes of a ghost are put on without a wrap. -/
theorem Counted.increaseGhost (hi : i ∈ lruIds) (hroom : s.size + bytes < uint64Limit) :
    s.increaseGhostAndTotalSize bytes i = some { s with
      ghostSize := update s.ghostSize i (s.ghostSize i + bytes)
      size := s.size + bytes } := by
  have hlist := h.ghostSize_le hi
  have hghost : s.ghostSize i + bytes < uint64Limit := by omega
  simp only [increaseGhostAndTotalSize, increaseTotalSize, require_bind (mem_lruIds.1 hi),
    Nat.mod_eq_of_lt hghost, Nat.mod_eq_of_lt hroom, pure_def]

theorem Counted.withoutData (hget : (s.dataList i).get it = some item) :
    Counted r (withoutData s i it item.getSizeForCapacity) := by
  have htotal := h.data.total_erase hget
  have hsize := h.size
  refine ⟨h.data.erase hget, h.ghost, ?_, h.notClamped, (Nat.sub_le _ _).trans_lt h.bounded⟩
  rw [listBytes] at hsize
  show s.size - item.getSizeForCapacity = totalBytes _ _
    (update s.dataList i ((s.dataList i).erase it)) + totalBytes _ _ s.ghostList + r
  omega

theorem Counted.withoutGhost (hget : (s.ghostList i).get it = some ghost) :
    Counted r (withoutGhost s i it ghost.getSizeForCapacity) := by
  have htotal := h.ghost.total_erase hget
  have hsize := h.size
  refine ⟨h.data, h.ghost.erase hget, ?_, h.notClamped, (Nat.sub_le _ _).trans_lt h.bounded⟩
  rw [listBytes] at hsize
  show s.size - ghost.getSizeForCapacity = totalBytes _ _ s.dataList +
    totalBytes _ _ (update s.ghostList i ((s.ghostList i).erase it)) + r
  omega

theorem Counted.withData (hi : item.lruId ∈ lruIds)
    (hroom : s.size + item.getSizeForCapacity < uint64Limit) : Counted r (withData s item) := by
  have htotal := SizedLists.total_pushFront ArcDataItem.getSizeForCapacity s.dataList hi
  have hsize := h.size
  refine ⟨h.data.pushFront hi, h.ghost, ?_, h.notClamped, hroom⟩
  rw [listBytes] at hsize
  show s.size + item.getSizeForCapacity = totalBytes _ _ (update s.dataList item.lruId
    ((s.dataList item.lruId).pushFront item)) + totalBytes _ _ s.ghostList + r
  omega

theorem Counted.withGhost (hi : ghost.lruId ∈ lruIds)
    (hroom : s.size + ghost.getSizeForCapacity < uint64Limit) : Counted r (withGhost s ghost) := by
  have htotal := SizedLists.total_pushFront ArcGhostItem.getSizeForCapacity s.ghostList hi
  have hsize := h.size
  refine ⟨h.data, h.ghost.pushFront hi, ?_, h.notClamped, hroom⟩
  rw [listBytes] at hsize
  show s.size + ghost.getSizeForCapacity = totalBytes _ _ s.dataList + totalBytes _ _
    (update s.ghostList ghost.lruId ((s.ghostList ghost.lruId).pushFront ghost)) + r
  omega

end Counted

/-- The entry of a key leaves the lookup map, and its bytes are taken off without a cut. -/
theorem Counted.eraseKey (h : Counted (r + (key.getKeyLength + 8)) s) :
    Counted r (s.eraseKey key) ∧ s.eraseKey key = { s with
      size := s.size - (key.getKeyLength + 8), keyLookup := s.keyLookup.erase key } := by
  have hsize := h.size
  have htotal : ¬ s.size < key.getKeyLength + 8 := by omega
  have heq : s.eraseKey key = { s with
      size := s.size - (key.getKeyLength + 8), keyLookup := s.keyLookup.erase key } := by
    simp only [ArcCachePolicy.eraseKey, decreaseTotalSize, clamped_sub, htotal, decide_false,
      Bool.or_false]
  refine ⟨?_, heq⟩
  rw [heq]
  refine ⟨h.data, h.ghost, ?_, h.notClamped, (Nat.sub_le _ _).trans_lt h.bounded⟩
  show s.size - (key.getKeyLength + 8) = listBytes s + r
  omega

/-! ## The invariant -/

/-- The representation, as it is used in the proofs. -/
structure Inv (s : ArcCachePolicy) : Prop where
  counted : Counted s.lookupBytes s
  indexes : Indexes id s.keyLookup s.keyAt
  bound : 0 ≤ s.p ∧ s.p ≤ s.capacityBytes

theorem lookupBytes_erase (hlookup : s.keyLookup.lookup key = some entry) :
    sumBy (fun (k : Key) (e : ArcKeyLookupIter) => k.getKeyLength +
      e.getSizeForCapacity) (s.keyLookup.erase key) + (key.getKeyLength + 8) = s.lookupBytes := by
  have herase := sumBy_erase (fun (k : Key) (e : ArcKeyLookupIter) =>
    k.getKeyLength + e.getSizeForCapacity) s.keyLookup key
  rw [hlookup] at herase
  exact herase

theorem lookupBytes_insert (hlookup : s.keyLookup.lookup key = none) (e : ArcKeyLookupIter) :
    sumBy (fun (k : Key) (e : ArcKeyLookupIter) => k.getKeyLength +
      e.getSizeForCapacity) (s.keyLookup.insert key e) =
      s.lookupBytes + (key.getKeyLength + 8) := by
  have hinsert := sumBy_insert (fun (k : Key) (e : ArcKeyLookupIter) =>
    k.getKeyLength + e.getSizeForCapacity) s.keyLookup key e
  rw [hlookup] at hinsert
  exact hinsert

theorem lookupBytes_reinsert (hlookup : s.keyLookup.lookup key = some entry)
    (e : ArcKeyLookupIter) :
    sumBy (fun (k : Key) (e : ArcKeyLookupIter) => k.getKeyLength +
      e.getSizeForCapacity) (s.keyLookup.insert key e) = s.lookupBytes := by
  have hinsert := sumBy_insert (fun (k : Key) (e : ArcKeyLookupIter) =>
    k.getKeyLength + e.getSizeForCapacity) s.keyLookup key e
  rw [hlookup] at hinsert
  exact Nat.add_right_cancel hinsert

/-- Whether a key of the lookup map is a ghost. -/
def status (s : ArcCachePolicy) (key : Key) : Option Bool :=
  (s.keyLookup.lookup key).map ArcKeyLookupIter.isGhost

/-- What an operation on a key does to the others: none becomes a ghost, and none that is cached is
lost. -/
structure Keeps (s s' : ArcCachePolicy) (key : Key) : Prop where
  ghost : ∀ k ≠ key, status s' k = some true → status s k = some true
  data : ∀ k ≠ key, status s k = some false → status s' k = some false
  capacityBytes : s'.capacityBytes = s.capacityBytes

theorem keeps_of_lookup (hlookup : ∀ k ≠ key, s'.keyLookup.lookup k = s.keyLookup.lookup k)
    (hcapacity : s'.capacityBytes = s.capacityBytes) : Keeps s s' key := by
  refine ⟨fun k hk hghost => ?_, fun k hk hdata => ?_, hcapacity⟩
  · rwa [status, hlookup k hk] at hghost
  · rwa [status, hlookup k hk]

theorem lookup_insert_ne (e : ArcKeyLookupIter) :
    ∀ k ≠ key, (s.keyLookup.insert key e).lookup k = s.keyLookup.lookup k := by
  intro k hk
  rw [lookup_insert_eq, if_neg hk]

theorem lookup_erase_ne :
    ∀ k ≠ key, (s.keyLookup.erase key).lookup k = s.keyLookup.lookup k := by
  intro k hk
  rw [lookup_erase_eq, if_neg hk]

section Access

variable (h : Inv s)
include h

/-- The object of a cached key. -/
theorem Inv.exists_item (hlookup : s.keyLookup.lookup key = some ⟨i, false, it⟩) :
    ∃ item, (s.dataList i).get it = some item ∧ item.key = key ∧ item.lruId = i ∧ i ∈ lruIds := by
  obtain ⟨k, hkey, rfl⟩ := (h.indexes key _).1 hlookup
  rw [keyAt_data, map_eq_some_iff] at hkey
  obtain ⟨item, hget, hitem⟩ := hkey
  exact ⟨item, hget, hitem, h.counted.data.mem i it item hget⟩

/-- The ghost of a key. -/
theorem Inv.exists_ghost (hlookup : s.keyLookup.lookup key = some ⟨i, true, it⟩) :
    ∃ ghost, (s.ghostList i).get it = some ghost ∧ ghost.key = key ∧ ghost.lruId = i ∧
      i ∈ lruIds := by
  obtain ⟨k, hkey, rfl⟩ := (h.indexes key _).1 hlookup
  rw [keyAt_ghost, map_eq_some_iff] at hkey
  obtain ⟨ghost, hget, hitem⟩ := hkey
  exact ⟨ghost, hget, hitem, h.counted.ghost.mem i it ghost hget⟩

theorem Inv.key_of_resident (hitem : item ∈ s.resident key) : item.key = key := by
  obtain ⟨⟨i, isGhost, it⟩, hlookup, hget⟩ := bind_eq_some_iff.1 hitem
  cases isGhost with
  | true => cases hget
  | false =>
    obtain ⟨item', hget', hkey, -⟩ := h.exists_item hlookup
    have hsame : item' = item := some.inj (hget'.symm.trans hget)
    exact hsame ▸ hkey

theorem Inv.lookup_item (hget : (s.dataList i).get it = some item) :
    s.keyLookup.lookup item.key = some ⟨i, false, it⟩ :=
  (h.indexes item.key _).2 ⟨item.key, by rw [keyAt_data, hget, map_some], rfl⟩

theorem Inv.lookup_ghost (hget : (s.ghostList i).get it = some ghost) :
    s.keyLookup.lookup ghost.key = some ⟨i, true, it⟩ :=
  (h.indexes ghost.key _).2 ⟨ghost.key, by rw [keyAt_ghost, hget, map_some], rfl⟩

/-! ## Combinations of moves -/

/-- A ghost is forgotten. -/
theorem Inv.forgetGhost (hget : (s.ghostList i).get it = some ghost) :
    Inv ((withoutGhost s i it ghost.getSizeForCapacity).eraseKey ghost.key) ∧
      Keeps s ((withoutGhost s i it ghost.getSizeForCapacity).eraseKey ghost.key) ghost.key ∧
      status ((withoutGhost s i it ghost.getSizeForCapacity).eraseKey ghost.key) ghost.key =
        none := by
  have hlookup := h.lookup_ghost hget
  have hwithout := h.counted.withoutGhost hget
  rw [← lookupBytes_erase hlookup] at hwithout
  obtain ⟨hcounted, heq⟩ := hwithout.eraseKey
  have hindexes := h.indexes.erase (a := ghost.key)
    (by rw [keyAt_ghost, hget, map_some] : s.keyAt ⟨i, true, it⟩ = some ghost.key)
  rw [← keyAt_eraseGhost] at hindexes
  rw [heq] at hcounted ⊢
  refine ⟨⟨hcounted, hindexes, h.bound⟩, keeps_of_lookup lookup_erase_ne rfl, ?_⟩
  show (AList.lookup ghost.key (s.keyLookup.erase ghost.key)).map _ = none
  rw [lookup_erase_eq, if_pos rfl, map_none]

/-- An object is forgotten. -/
theorem Inv.forgetData (hget : (s.dataList i).get it = some item) :
    Inv ((withoutData s i it item.getSizeForCapacity).eraseKey item.key) ∧
      Keeps s ((withoutData s i it item.getSizeForCapacity).eraseKey item.key) item.key := by
  have hlookup := h.lookup_item hget
  have hwithout := h.counted.withoutData hget
  rw [← lookupBytes_erase hlookup] at hwithout
  obtain ⟨hcounted, heq⟩ := hwithout.eraseKey
  have hindexes := h.indexes.erase (a := item.key)
    (by rw [keyAt_data, hget, map_some] : s.keyAt ⟨i, false, it⟩ = some item.key)
  rw [← keyAt_eraseData] at hindexes
  rw [heq] at hcounted ⊢
  exact ⟨⟨hcounted, hindexes, h.bound⟩, keeps_of_lookup lookup_erase_ne rfl⟩

/-- An object moves to the head of a list, possibly with another value. -/
theorem Inv.moveData (item' : ArcDataItem) (hget : (s.dataList i).get it = some item)
    (hkey : item'.key = item.key) (hid : item'.lruId ∈ lruIds)
    (hroom : (withoutData s i it item.getSizeForCapacity).size + item'.getSizeForCapacity <
      uint64Limit) :
    Inv (withData (withoutData s i it item.getSizeForCapacity) item') ∧
      Keeps s (withData (withoutData s i it item.getSizeForCapacity) item') item.key ∧
      status (withData (withoutData s i it item.getSizeForCapacity) item') item.key =
        some false := by
  have hlookup := h.lookup_item hget
  have hcounted := (h.counted.withoutData hget).withData hid hroom
  rw [← lookupBytes_reinsert hlookup
    ⟨item'.lruId, false, ((s.eraseData i it).dataList item'.lruId).next⟩, ← hkey] at hcounted
  have hunused : s.keyAt ⟨item'.lruId, false, ((s.eraseData i it).dataList item'.lruId).next⟩ =
      none := by
    rw [next_eraseData]
    exact keyAt_next
  have hindexes := h.indexes.move (a := item.key) (b := item'.key)
    (by rw [keyAt_data, hget, map_some] : s.keyAt ⟨i, false, it⟩ = some item.key) hkey
    hunused
  rw [← keyAt_eraseData, ← keyAt_pushFrontData] at hindexes
  have hmap : (withData (withoutData s i it item.getSizeForCapacity) item').keyLookup =
      s.keyLookup.insert item.key
        ⟨item'.lruId, false, ((s.eraseData i it).dataList item'.lruId).next⟩ := by
    rw [← hkey]
    rfl
  refine ⟨⟨hcounted, ?_, h.bound⟩, keeps_of_lookup ?_ rfl, ?_⟩
  · rw [hmap]
    exact hindexes
  · rw [hmap]
    exact lookup_insert_ne _
  · rw [status, hmap, lookup_insert_eq, if_pos rfl, map_some]

/-- An object leaves its list, and a ghost of its key takes its place. -/
theorem Inv.leaveGhost (ghost : ArcGhostItem) (hget : (s.dataList i).get it = some item)
    (hkey : ghost.key = item.key) (hid : ghost.lruId ∈ lruIds)
    (hroom : (withoutData s i it item.getSizeForCapacity).size + ghost.getSizeForCapacity <
      uint64Limit) :
    Inv (withGhost (withoutData s i it item.getSizeForCapacity) ghost) ∧
      Keeps s (withGhost (withoutData s i it item.getSizeForCapacity) ghost) item.key := by
  have hlookup := h.lookup_item hget
  have hcounted := (h.counted.withoutData hget).withGhost hid hroom
  rw [← lookupBytes_reinsert hlookup ⟨ghost.lruId, true, (s.ghostList ghost.lruId).next⟩,
    ← hkey] at hcounted
  have hindexes := h.indexes.move (a := item.key) (b := ghost.key)
    (by rw [keyAt_data, hget, map_some] : s.keyAt ⟨i, false, it⟩ = some item.key) hkey
    (keyAt_nextGhost (i := ghost.lruId))
  rw [← keyAt_eraseData] at hindexes
  have hmap : (withGhost (withoutData s i it item.getSizeForCapacity) ghost).keyLookup =
      s.keyLookup.insert item.key ⟨ghost.lruId, true, (s.ghostList ghost.lruId).next⟩ := by
    rw [← hkey]
    rfl
  refine ⟨⟨hcounted, ?_, h.bound⟩, keeps_of_lookup ?_ rfl⟩
  · rw [hmap]
    have hplace := keyAt_pushFrontGhost (s.eraseData i it) ghost
    exact hplace ▸ hindexes
  · rw [hmap]
    exact lookup_insert_ne _

/-! ## Accesses -/

theorem Inv.adaptedP (i : Nat) : 0 ≤ s.adaptedP i ∧ s.adaptedP i ≤ s.capacityBytes := by
  obtain ⟨hnonneg, hle⟩ := h.bound
  rw [ArcCachePolicy.adaptedP]
  split
  · refine ⟨le_min ?_ (Nat.cast_nonneg _), min_le_right _ _⟩
    exact add_nonneg hnonneg (zero_le_one.trans (le_max_right _ _))
  · refine ⟨le_max_right _ _, max_le ?_ (Nat.cast_nonneg _)⟩
    exact (sub_le_self _ (zero_le_one.trans (le_max_right _ _))).trans hle

/-- A hit on a ghost forgets the ghost. -/
theorem Inv.ghostHit (hlookup : s.keyLookup.lookup key = some ⟨i, true, it⟩) :
    ∃ s', s.ghostHit key ⟨i, true, it⟩ = some s' ∧ Inv s' ∧ Keeps s s' key ∧
      status s' key = none := by
  obtain ⟨ghost, hget, hkey, hid, hmem⟩ := h.exists_ghost hlookup
  have hpos : s.ghostSize i ≥ 1 := by
    have hle := h.counted.ghost.le_size hget
    rw [ArcGhostItem.getSizeForCapacity] at hle
    omega
  -- the bound is adapted before the ghost is forgotten
  have hadapted : Inv { s with
      vtimeLastReqInGhost := s.reqseq
      currObjInGhost := update s.currObjInGhost i true
      p := s.adaptedP i } :=
    ⟨⟨h.counted.data, h.counted.ghost, h.counted.size, h.counted.notClamped,
      h.counted.bounded⟩, h.indexes, h.adaptedP i⟩
  obtain ⟨hinv, hkeeps, hstatus⟩ := hadapted.forgetGhost hget
  rw [hkey] at hinv hkeeps hstatus
  refine ⟨_, ?_, hinv, ⟨hkeeps.ghost, hkeeps.data, hkeeps.capacityBytes⟩, hstatus⟩
  simp only [ArcCachePolicy.ghostHit, require_bind (mem_lruIds.1 hmem), hget, some_bind,
    require_bind hkey, require_bind hid, require_bind hpos, hadapted.counted.decreaseGhost hget,
    pure_def]
  rfl

/-- A hit on an object moves it to the second list, if the total size still fits. -/
theorem Inv.dataHit (hlookup : s.keyLookup.lookup key = some ⟨i, false, it⟩)
    (newValue : Option Value)
    (hroom : ∀ item, (s.dataList i).get it = some item →
      s.size + (⟨key, newValue.getD item.value, 2⟩ : ArcDataItem).getSizeForCapacity <
        uint64Limit + item.getSizeForCapacity) :
    ∃ s' value, s.dataHit key ⟨i, false, it⟩ newValue = some (s', value) ∧ Inv s' ∧
      Keeps s s' key ∧ status s' key = some false := by
  obtain ⟨item, hget, hkey, hid, hmem⟩ := h.exists_item hlookup
  have htwo : 2 ∈ lruIds := mem_lruIds.2 (.inr rfl)
  have hsize : (withoutData s i it item.getSizeForCapacity).size +
      (⟨key, newValue.getD item.value, 2⟩ : ArcDataItem).getSizeForCapacity < uint64Limit := by
    have hroom := hroom item hget
    have hle := h.counted.data.le_size hget
    have htotal := h.counted.dataSize_le hmem
    show s.size - item.getSizeForCapacity + _ < uint64Limit
    omega
  obtain ⟨hinv, hkeeps, hstatus⟩ := h.moveData ⟨key, newValue.getD item.value, 2⟩ hget hkey.symm
    htwo hsize
  rw [hkey] at hkeeps hstatus
  refine ⟨_, item.value, ?_, hinv, hkeeps, hstatus⟩
  have hincrease := (h.counted.withoutData hget).increaseData _ htwo hsize
  simp only [ArcCachePolicy.dataHit, hget, some_bind, require_bind hkey, require_bind hid,
    h.counted.decreaseData hget]
  show ((withoutData s i it item.getSizeForCapacity).increaseDataAndTotalSize _ 2).bind _ = _
  rw [hincrease]
  rfl

/-- An access does not fail. It forgets a ghost of the key and keeps its object. -/
theorem Inv.access (key : Key) (newValue : Option Value)
    (hroom : ∀ item ∈ s.resident key,
      s.size + (⟨key, newValue.getD item.value, 2⟩ : ArcDataItem).getSizeForCapacity <
        uint64Limit + item.getSizeForCapacity) :
    ∃ s' value, s.access key newValue = some (s', value) ∧ Inv s' ∧ Keeps s s' key ∧
      status s' key ≠ some true ∧ (status s key = some false → status s' key = some false) := by
  rw [ArcCachePolicy.access]
  cases hlookup : s.keyLookup.lookup key with
  | none =>
    have hstatus : status s key = none := by rw [status, hlookup, map_none]
    refine ⟨_, _, rfl, ⟨⟨h.counted.data, h.counted.ghost, h.counted.size, h.counted.notClamped,
      h.counted.bounded⟩, h.indexes, h.bound⟩, keeps_of_lookup (fun _ _ => rfl) rfl, ?_, ?_⟩
    · show status s key ≠ some true
      rw [hstatus]
      exact some_ne_none true |>.symm
    · exact fun hdata => hdata
  | some entry =>
    obtain ⟨i, isGhost, it⟩ := entry
    -- the clock and the flags of the last request do not matter
    have hstarted : Inv { s with reqseq := s.reqseq + 1, currObjInGhost := fun _ => false } :=
      ⟨⟨h.counted.data, h.counted.ghost, h.counted.size, h.counted.notClamped,
        h.counted.bounded⟩, h.indexes, h.bound⟩
    cases isGhost with
    | true =>
      obtain ⟨s', hhit, hinv, hkeeps, hstatus⟩ := hstarted.ghostHit hlookup
      refine ⟨s', none, ?_, hinv, ⟨hkeeps.ghost, hkeeps.data, hkeeps.capacityBytes⟩, ?_, ?_⟩
      · show (ArcCachePolicy.ghostHit _ _ _).map _ = _
        rw [hhit]
        rfl
      · rw [hstatus]
        exact some_ne_none true |>.symm
      · intro hdata
        rw [status, hlookup] at hdata
        cases hdata
    | false =>
      have hresident : s.resident key = (s.dataList i).get it := by
        rw [resident, hlookup]
        rfl
      rw [hresident] at hroom
      obtain ⟨s', value, hhit, hinv, hkeeps, hstatus⟩ := hstarted.dataHit hlookup newValue hroom
      refine ⟨s', some value, ?_, hinv, ⟨hkeeps.ghost, hkeeps.data, hkeeps.capacityBytes⟩, ?_,
        fun _ => hstatus⟩
      · show (ArcCachePolicy.dataHit _ _ _ _).map _ = _
        rw [hhit]
        rfl
      · rw [hstatus]
        exact fun heq => Bool.false_ne_true (some.inj heq)

/-! ## Admission -/

/-- An object with a new key enters a list. -/
theorem Inv.pushNew (item : ArcDataItem) (hnew : s.keyLookup.lookup item.key = none)
    (hid : item.lruId ∈ lruIds)
    (hroom : s.size + item.getSizeForCapacity + (item.key.getKeyLength + 8) < uint64Limit) :
    s.increaseDataAndTotalSize item.getSizeForCapacity item.lruId = some { s with
        dataSize := update s.dataSize item.lruId
          (s.dataSize item.lruId + item.getSizeForCapacity)
        size := s.size + item.getSizeForCapacity } ∧
      Inv ((withData s item).increaseTotalSize (item.key.getKeyLength + 8)) ∧
      Keeps s ((withData s item).increaseTotalSize (item.key.getKeyLength + 8)) item.key ∧
      status ((withData s item).increaseTotalSize (item.key.getKeyLength + 8)) item.key =
        some false := by
  have hfits : s.size + item.getSizeForCapacity < uint64Limit := by omega
  have hcounted := h.counted.withData hid hfits
  have hsize := hcounted.size
  have hbytes := lookupBytes_insert hnew ⟨item.lruId, false, (s.dataList item.lruId).next⟩
  have htotal : ((withData s item).size + (item.key.getKeyLength + 8)) % uint64Limit =
      s.size + item.getSizeForCapacity + (item.key.getKeyLength + 8) := Nat.mod_eq_of_lt hroom
  have hindexes := h.indexes.insert (a := item.key) hnew (keyAt_next (i := item.lruId))
  rw [← keyAt_pushFrontData] at hindexes
  refine ⟨h.counted.increaseData _ hid hfits, ⟨⟨hcounted.data, hcounted.ghost, ?_,
    hcounted.notClamped, ?_⟩, hindexes, h.bound⟩, keeps_of_lookup (lookup_insert_ne _) rfl, ?_⟩
  · show ((withData s item).size + (item.key.getKeyLength + 8)) % uint64Limit =
      listBytes (withData s item) + sumBy _ (s.keyLookup.insert item.key _)
    rw [htotal, hbytes]
    have hgrown : (withData s item).size = s.size + item.getSizeForCapacity := rfl
    omega
  · show ((withData s item).size + (item.key.getKeyLength + 8)) % uint64Limit < uint64Limit
    rwa [htotal]
  · show ((s.keyLookup.insert item.key _).lookup item.key).map _ = _
    rw [lookup_insert_eq, if_pos rfl]
    rfl

theorem Inv.setIncomingObjsize (bytes : Nat) : Inv { s with incomingObjsize := bytes } :=
  ⟨⟨h.counted.data, h.counted.ghost, h.counted.size, h.counted.notClamped, h.counted.bounded⟩,
    h.indexes, h.bound⟩

/-- An admission of a key that is not a ghost does not fail. -/
theorem Inv.admitObject {value : Value} (hghost : status s key ≠ some true)
    (hroom : s.keyLookup.lookup key = none →
      s.size + (key.getKeyLength + 4 + 1 + value.valuesize) + (key.getKeyLength + 8) <
        uint64Limit) :
    ∃ s', s.admitObject key value = some s' ∧ Inv s' ∧ Keeps s s' key ∧
      status s' key = some false := by
  rw [ArcCachePolicy.admitObject]
  cases hlookup : s.keyLookup.lookup key with
  | some entry =>
    have hdata : entry.isGhost = false := by
      rw [status, hlookup, map_some] at hghost
      exact Bool.eq_false_iff.2 fun heq => hghost (congrArg some heq)
    refine ⟨s, ?_, h, keeps_of_lookup (fun _ _ => rfl) rfl, ?_⟩
    · simp only [require_bind hdata, pure_def]
    · rw [status, hlookup, map_some, hdata]
  | none =>
    have hroom := hroom hlookup
    cases hlast : s.lastReqInGhost with
    | true =>
      -- the flags of the last request are reset
      have hreset : Inv { s with currObjInGhost := fun _ => false, vtimeLastReqInGhost := -1 } :=
        ⟨⟨h.counted.data, h.counted.ghost, h.counted.size, h.counted.notClamped,
          h.counted.bounded⟩, h.indexes, h.bound⟩
      have hid : 2 ∈ lruIds := mem_lruIds.2 (.inr rfl)
      obtain ⟨hincrease, hinv, hkeeps, hstatus⟩ :=
        hreset.pushNew ⟨key, value, 2⟩ hlookup hid hroom
      refine ⟨_, ?_, hinv.setIncomingObjsize (objectSize key value),
        ⟨hkeeps.ghost, hkeeps.data, hkeeps.capacityBytes⟩, hstatus⟩
      have hincrease' := h.counted.increaseData (ArcDataItem.getSizeForCapacity ⟨key, value, 2⟩)
        hid (Nat.lt_of_le_of_lt (Nat.le_add_right _ _) hroom)
      simp only [if_true, hincrease', some_bind, pure_def]
      rfl
    | false =>
      have hid : 1 ∈ lruIds := mem_lruIds.2 (.inl rfl)
      obtain ⟨hincrease, hinv, hkeeps, hstatus⟩ :=
        h.pushNew ⟨key, value, 1⟩ hlookup hid hroom
      refine ⟨_, ?_, hinv.setIncomingObjsize (objectSize key value),
        ⟨hkeeps.ghost, hkeeps.data, hkeeps.capacityBytes⟩, hstatus⟩
      simp only [Bool.false_eq_true, if_false, hincrease, some_bind, pure_def]
      rfl

/-! ## Victims -/

theorem Inv.dataSize_eq_zero_iff : s.dataSize i = 0 ↔ (s.dataList i).toList = [] :=
  h.counted.data.size_eq_zero_iff fun item => by
    rw [ArcDataItem.getSizeForCapacity]
    omega

/-- A list that counts bytes has a tail, which is a cached object. -/
theorem Inv.exists_tail (hpos : s.dataSize i ≠ 0) :
    ∃ it item, (s.dataList i).back = some (it, item) ∧
      s.keyLookup.lookup item.key = some ⟨i, false, it⟩ := by
  cases hback : (s.dataList i).back with
  | none => exact absurd (h.dataSize_eq_zero_iff.2 (back_eq_none_iff.1 hback)) hpos
  | some tail =>
    obtain ⟨it, item⟩ := tail
    exact ⟨it, item, rfl, h.lookup_item (get_of_back hback)⟩

end Access

/-- A victim is found iff a list of objects counts bytes, and it is a cached key. -/
def FindsVictim (s : ArcCachePolicy) (victim : Option Key) : Prop :=
  (victim.isSome = true ↔ s.dataSize 1 ≠ 0 ∨ s.dataSize 2 ≠ 0) ∧
    ∀ key ∈ victim, status s key = some false

section Evict

variable (h : Inv s)
include h

theorem Inv.findsVictim_tail (hi : i ∈ lruIds) (hpos : s.dataSize i ≠ 0) :
    ∃ it item, (s.dataList i).back = some (it, item) ∧
      (s.keyLookup.lookup item.key).isSome = true ∧ FindsVictim s (some item.key) := by
  obtain ⟨it, item, hback, hlookup⟩ := h.exists_tail hpos
  refine ⟨it, item, hback, by rw [hlookup, isSome_some], iff_of_true rfl ?_, ?_⟩
  · rcases mem_lruIds.1 hi with rfl | rfl
    · exact .inl hpos
    · exact .inr hpos
  · intro key hkey
    cases hkey
    rw [status, hlookup, map_some]

theorem Inv.toReplace : ∃ victim, s.toReplace = some victim ∧ FindsVictim s victim := by
  by_cases hempty : s.dataSize 1 = 0 ∧ s.dataSize 2 = 0
  · refine ⟨none, by rw [ArcCachePolicy.toReplace, if_pos hempty], iff_of_false ?_ ?_, ?_⟩
    · exact Bool.false_ne_true
    · rintro (hone | htwo)
      · exact hone hempty.1
      · exact htwo hempty.2
    · intro key hkey
      cases hkey
  · rw [ArcCachePolicy.toReplace, if_neg hempty]
    -- the chosen list counts bytes
    have hchosen : ∀ cond : Bool, ∃ i ∈ lruIds,
        (if ((decide (s.dataSize 1 > 0) && cond) || decide (s.dataSize 2 = 0)) = true then 1
          else 2) = i ∧ s.dataSize i ≠ 0 := by
      intro cond
      by_cases htwo : s.dataSize 2 = 0
      · refine ⟨1, mem_lruIds.2 (.inl rfl), ?_, fun hone => hempty ⟨hone, htwo⟩⟩
        rw [decide_eq_true htwo, Bool.or_true, if_pos rfl]
      · rw [decide_eq_false htwo, Bool.or_false]
        by_cases hone : (decide (s.dataSize 1 > 0) && cond) = true
        · have hpos := of_decide_eq_true (Bool.and_eq_true_iff.1 hone).1
          exact ⟨1, mem_lruIds.2 (.inl rfl), if_pos hone, Nat.pos_iff_ne_zero.1 hpos⟩
        · exact ⟨2, mem_lruIds.2 (.inr rfl), if_neg hone, htwo⟩
    obtain ⟨i, hi, heq, hpos⟩ := hchosen (decide ((s.dataSize 1 : ℚ) > s.p) ||
      (decide ((s.dataSize 1 : ℚ) = s.p) && s.currObjInGhost 2))
    obtain ⟨it, item, hback, hsome, hfinds⟩ := h.findsVictim_tail hi hpos
    refine ⟨some item.key, ?_, hfinds⟩
    dsimp only
    rw [heq]
    simp only [hback, some_bind, require_bind hsome, pure_def]

/-- A victim is found if the last admitted object is not larger than the cache. -/
theorem Inv.getVictimKey (hincoming : s.incomingObjsize ≤ s.capacityBytes) :
    ∃ victim, s.getVictimKey = some victim ∧ FindsVictim s victim := by
  rw [ArcCachePolicy.getVictimKey]
  split
  · exact h.toReplace
  · rw [toEvictMissOnAllQueues]
    split
    · next hfull =>
      split
      · exact h.toReplace
      · next hghost =>
        -- the first list has no ghosts, so it holds objects
        have hpos : s.dataSize 1 ≠ 0 := by
          intro hzero
          rw [firstListFull, decide_eq_true_iff] at hfull
          have hmod := Nat.mod_le (s.dataSize 1 + s.ghostSize 1 + s.incomingObjsize) uint64Limit
          omega
        obtain ⟨it, item, hback, -, hfinds⟩ := h.findsVictim_tail (mem_lruIds.2 (.inl rfl)) hpos
        exact ⟨some item.key, by rw [hback, map_some], hfinds⟩
    · exact h.toReplace

/-! ## Eviction -/

/-- What dropping the oldest ghost of a list does. -/
theorem Inv.evictGhost_eq (hback : (s.ghostList i).back = some (it, ghost)) :
    ArcCachePolicy.evictGhost i s =
      some ((withoutGhost s i it ghost.getSizeForCapacity).eraseKey ghost.key) := by
  have hget := get_of_back hback
  have hid := (h.counted.ghost.mem i it ghost hget).1
  simp only [ArcCachePolicy.evictGhost, hback, some_bind, require_bind hid,
    h.counted.decreaseGhost hget, h.lookup_ghost hget, pure_def]
  rfl

/-- Dropping the oldest ghost of a list with ghosts does not fail. -/
theorem Inv.evictGhost (hpos : s.ghostSize i > 0) :
    ∃ t g, evictGhost i s = some t ∧ Inv t ∧ status s g = some true ∧
      t.keyLookup = s.keyLookup.erase g ∧ t.capacityBytes = s.capacityBytes := by
  cases hback : (s.ghostList i).back with
  | none =>
    have hsize := h.counted.ghost.size i
    rw [bytes, back_eq_none_iff.1 hback] at hsize
    exact absurd hsize (Nat.pos_iff_ne_zero.1 hpos)
  | some tail =>
    obtain ⟨it, ghost⟩ := tail
    have hget := get_of_back hback
    obtain ⟨hinv, -, -⟩ := h.forgetGhost hget
    refine ⟨_, ghost.key, h.evictGhost_eq hback, hinv, ?_, rfl, rfl⟩
    rw [status, h.lookup_ghost hget, map_some]

/-- There is room for the ghost of an object that has left its list. -/
theorem Inv.room_for_ghost (hget : (s.dataList i).get it = some item)
    (hkey : item.key = key) : (withoutData s i it item.getSizeForCapacity).size +
      (⟨key, i⟩ : ArcGhostItem).getSizeForCapacity < uint64Limit := by
  have hle := h.counted.data.le_size hget
  have htotal := h.counted.dataSize_le (h.counted.data.mem i it item hget).2
  have hbounded := h.counted.bounded
  have hsmaller : (⟨key, i⟩ : ArcGhostItem).getSizeForCapacity ≤ item.getSizeForCapacity := by
    rw [ArcGhostItem.getSizeForCapacity, ArcDataItem.getSizeForCapacity, hkey]
    exact Nat.le_add_right _ _
  show s.size - item.getSizeForCapacity + _ < uint64Limit
  omega

/-- What turning a cached object into a ghost does. -/
theorem Inv.evictData_eq (hget : (s.dataList i).get it = some item) (hkey : item.key = key) :
    ArcCachePolicy.evictData i s ⟨i, false, it⟩ key =
      some (withGhost (withoutData s i it item.getSizeForCapacity) ⟨key, i⟩, item.value) := by
  obtain ⟨hid, hmem⟩ := h.counted.data.mem i it item hget
  have hincrease :=
    (h.counted.withoutData hget).increaseGhost hmem (h.room_for_ghost hget hkey)
  simp only [ArcCachePolicy.evictData, require_bind, hget, some_bind, require_bind hkey,
    require_bind hid, h.counted.decreaseData hget]
  show ((withoutData s i it item.getSizeForCapacity).increaseGhostAndTotalSize _ i).bind _ = _
  rw [hincrease]
  rfl

/-- Turning a cached object into a ghost does not fail. -/
theorem Inv.evictData (hlookup : s.keyLookup.lookup key = some ⟨i, false, it⟩) :
    ∃ t value, evictData i s ⟨i, false, it⟩ key = some (t, value) ∧ Inv t ∧ Keeps s t key := by
  obtain ⟨item, hget, hkey, -, hmem⟩ := h.exists_item hlookup
  obtain ⟨hinv, hkeeps⟩ :=
    h.leaveGhost ⟨key, i⟩ hget hkey.symm hmem (h.room_for_ghost hget hkey)
  rw [hkey] at hkeeps
  exact ⟨_, item.value, h.evictData_eq hget hkey, hinv, hkeeps⟩

/-- What forgetting an object of the first list does. -/
theorem Inv.evictL1DataNoGhost_eq (hget : (s.dataList 1).get it = some item)
    (hkey : item.key = key) :
    s.evictL1DataNoGhost ⟨1, false, it⟩ key =
      some ((withoutData s 1 it item.getSizeForCapacity).eraseKey key, item.value) := by
  have hid := (h.counted.data.mem 1 it item hget).1
  simp only [ArcCachePolicy.evictL1DataNoGhost, require_bind, hget, some_bind, require_bind hkey,
    require_bind hid, h.counted.decreaseData hget, pure_def]
  rfl

/-- Forgetting an object of the first list does not fail. -/
theorem Inv.evictL1DataNoGhost (hlookup : s.keyLookup.lookup key = some ⟨1, false, it⟩) :
    ∃ t value, s.evictL1DataNoGhost ⟨1, false, it⟩ key = some (t, value) ∧ Inv t ∧
      Keeps s t key := by
  obtain ⟨item, hget, hkey, -, -⟩ := h.exists_item hlookup
  obtain ⟨hinv, hkeeps⟩ := h.forgetData hget
  rw [hkey] at hinv hkeeps
  exact ⟨_, item.value, h.evictL1DataNoGhost_eq hget hkey, hinv, hkeeps⟩

/-- Dropping a ghost and then evicting an object does not fail. -/
theorem Inv.evictGhostAndData (hpos : s.ghostSize i > 0)
    (hlookup : s.keyLookup.lookup key = some ⟨i, false, it⟩) :
    ∃ t value, ((ArcCachePolicy.evictGhost i s).bind fun t =>
      ArcCachePolicy.evictData i t ⟨i, false, it⟩ key) = some (t, value) ∧ Inv t ∧
        Keeps s t key := by
  obtain ⟨t, g, hevict, hinv, hghost, hmap, hcapacity⟩ := h.evictGhost hpos
  have hne : key ≠ g := by
    rintro rfl
    rw [status, hlookup] at hghost
    cases hghost
  have hlookup' : t.keyLookup.lookup key = some ⟨i, false, it⟩ := by
    rw [hmap, lookup_erase_eq, if_neg hne, hlookup]
  obtain ⟨u, value, hdata, hinv', hkeeps⟩ := hinv.evictData hlookup'
  have hstatus : ∀ k, status t k = if k = g then none else status s k := by
    intro k
    rw [status, hmap, lookup_erase_eq]
    split
    · rfl
    · rfl
  refine ⟨u, value, by rw [hevict, bind_some, hdata], hinv', fun k hk hk' => ?_,
    fun k hk hk' => ?_, hkeeps.capacityBytes.trans hcapacity⟩
  · have hold := hkeeps.ghost k hk hk'
    rw [hstatus k] at hold
    split at hold
    · cases hold
    · exact hold
  · refine hkeeps.data k hk ?_
    rw [hstatus k, if_neg, hk']
    rintro rfl
    rw [hghost] at hk'
    cases hk'

/-- Evicting a cached object from its list does not fail. -/
theorem Inv.evictObject (hlookup : s.keyLookup.lookup key = some ⟨i, false, it⟩) :
    ∃ t value, s.evictObject ⟨i, false, it⟩ key = some (t, value) ∧ Inv t ∧ Keeps s t key := by
  obtain ⟨-, -, -, -, hmem⟩ := h.exists_item hlookup
  rw [ArcCachePolicy.evictObject]
  rcases mem_lruIds.1 hmem with rfl | rfl
  · rw [if_pos rfl]
    split
    · split
      · next hpos => exact h.evictGhostAndData hpos hlookup
      · exact h.evictL1DataNoGhost hlookup
    · exact h.evictData hlookup
  · rw [if_neg (Nat.succ_ne_self 1), if_pos rfl]
    split
    · next hfull =>
      rw [secondGhostListFull, Bool.and_eq_true, decide_eq_true_iff, decide_eq_true_iff] at hfull
      exact h.evictGhostAndData hfull.2 hlookup
    · exact h.evictData hlookup

/-- The eviction of a cached key does not fail. -/
theorem Inv.evictWithGivenKey (hcached : status s key = some false) :
    ∃ t value, s.evictWithGivenKey key = some (t, some value) ∧ Inv t ∧ Keeps s t key := by
  obtain ⟨⟨i, isGhost, it⟩, hlookup, hghost⟩ := map_eq_some_iff.1 hcached
  obtain rfl : isGhost = false := hghost
  obtain ⟨t, value, hevict, hinv, hkeeps⟩ := h.evictObject hlookup
  refine ⟨t, value, ?_, hinv, hkeeps⟩
  rw [ArcCachePolicy.evictWithGivenKey, hlookup]
  simp only [require_bind, hevict, some_bind, pure_def]

/-! ## Runs -/

theorem Inv.represents : Represents s where
  denotes := by
    intro key entry
    rw [h.indexes key entry]
    exact exists_eq_right
  inData := by
    intro lruId listIter item hget
    obtain ⟨hid, hmem⟩ := h.counted.data.mem lruId listIter item hget
    exact ⟨hid, mem_lruIds.1 hmem⟩
  inGhost := by
    intro lruId listIter item hget
    obtain ⟨hid, hmem⟩ := h.counted.ghost.mem lruId listIter item hget
    exact ⟨hid, mem_lruIds.1 hmem⟩
  dataSize := h.counted.data.size
  ghostSize := h.counted.ghost.size
  size := by
    have hsize := h.counted.size
    rw [listBytes, totalBytes, totalBytes, lruIds, Finset.sum_pair (by decide),
      Finset.sum_pair (by decide), ← Nat.add_assoc] at hsize
    exact hsize
  notClamped := h.counted.notClamped
  bound := h.bound

/-- A victim that is found as the counters say is found as the lists say. -/
theorem Inv.victim_of_findsVictim {victim : Option Key} (hfinds : FindsVictim s victim) :
    (victim.isSome = true ↔ ∃ lruId, (s.dataList lruId).toList ≠ []) ∧
      ∀ key ∈ victim, s.HoldsObject key := by
  refine ⟨hfinds.1.trans ⟨?_, ?_⟩, fun key hkey => ?_⟩
  · rintro (hone | htwo)
    · exact ⟨1, fun hnil => hone (h.dataSize_eq_zero_iff.2 hnil)⟩
    · exact ⟨2, fun hnil => htwo (h.dataSize_eq_zero_iff.2 hnil)⟩
  · rintro ⟨i, hne⟩
    obtain ⟨item, hitem⟩ := List.exists_mem_of_ne_nil _ hne
    obtain ⟨it, hget⟩ := mem_toList_iff.1 hitem
    rcases mem_lruIds.1 (h.counted.data.mem i it item hget).2 with rfl | rfl
    · exact .inl fun hzero => hne (h.dataSize_eq_zero_iff.1 hzero)
    · exact .inr fun hzero => hne (h.dataSize_eq_zero_iff.1 hzero)
  · obtain ⟨⟨i, isGhost, it⟩, hlookup, hghost⟩ := map_eq_some_iff.1 (hfinds.2 key hkey)
    obtain rfl : isGhost = false := hghost
    obtain ⟨item, hget, hkey, -, -⟩ := h.exists_item hlookup
    exact ⟨i, item, mem_toList_iff.2 ⟨it, hget⟩, hkey⟩

end Evict

/-- The invariant of a run: no accessed key is a ghost, and every returned victim is cached. -/
structure DrivenInv (d : Driven) : Prop where
  cache : Inv d.cache
  accessed : ∀ key ∈ d.accessed, status d.cache key ≠ some true
  returned : ∀ key ∈ d.returned, status d.cache key = some false

theorem inv_create (capacityBytes uninitialised : Nat) :
    DrivenInv (create capacityBytes uninitialised) where
  cache :=
    { counted := ⟨SizedLists.empty, SizedLists.empty, rfl, rfl, Nat.two_pow_pos 64⟩
      indexes := by
        apply Indexes.empty
        intro ⟨i, isGhost, it⟩
        cases isGhost with
        | true => rfl
        | false => rfl
      bound := ⟨le_refl 0, Nat.cast_nonneg capacityBytes⟩ }
  accessed := by
    intro key hkey
    cases hkey
  returned := by
    intro key hkey
    cases hkey

variable {d d' : Driven}

/-- After an access of a key. -/
theorem DrivenInv.accessed_insert (h : DrivenInv d) (hinv : Inv s') (hkeeps : Keeps d.cache s' key)
    (hghost : status s' key ≠ some true)
    (hdata : status d.cache key = some false → status s' key = some false) :
    DrivenInv { d with cache := s', accessed := insert key d.accessed } := by
  refine ⟨hinv, fun k hk => ?_, fun k hk => ?_⟩
  · by_cases hkk : k = key
    · rwa [hkk]
    · intro hstatus
      exact h.accessed k ((Finset.mem_insert.1 hk).resolve_left hkk) (hkeeps.ghost k hkk hstatus)
  · by_cases hkk : k = key
    · rw [hkk] at hk ⊢
      exact hdata (h.returned key hk)
    · exact hkeeps.data k hkk (h.returned k hk)

/-- An operation that meets the condition does not fail and keeps the invariant. -/
theorem DrivenInv.step {a : Action} (h : DrivenInv d) (hmeets : Meets d a) :
    ∃ d' out, step d a = some (d', out) ∧ DrivenInv d' := by
  obtain ⟨hpromised, hmeets⟩ := hmeets
  cases a with
  | get key =>
    have hroom : ∀ item ∈ d.cache.resident key, d.cache.size +
        (⟨key, item.value, 2⟩ : ArcDataItem).getSizeForCapacity <
          uint64Limit + item.getSizeForCapacity := by
      intro item hitem
      have hbounded := h.cache.counted.bounded
      rw [← h.cache.key_of_resident hitem]
      exact Nat.add_lt_add_right hbounded _
    obtain ⟨s', value, haccess, hinv, hkeeps, hghost, hdata⟩ := h.cache.access key none hroom
    refine ⟨_, .value value, ?_, h.accessed_insert hinv hkeeps hghost hdata⟩
    rw [Arc.step, ArcCachePolicy.get, haccess, map_some]
  | update key value =>
    obtain ⟨s', old, haccess, hinv, hkeeps, hghost, hdata⟩ :=
      h.cache.access key (some value) hmeets
    refine ⟨_, .flag old.isSome, ?_, h.accessed_insert hinv hkeeps hghost hdata⟩
    rw [Arc.step, ArcCachePolicy.update, haccess]
    rfl
  | admitObject key value =>
    obtain ⟨s', hadmitted, hinv, hkeeps, hstatus⟩ :=
      h.cache.admitObject (h.accessed key hpromised.1) hmeets
    refine ⟨_, .void, by rw [Arc.step, hadmitted]; rfl, hinv, fun k hk => ?_, fun k hk => ?_⟩
    · by_cases hkk : k = key
      · rw [hkk, hstatus]
        exact fun heq => Bool.false_ne_true (some.inj heq)
      · exact fun hghost => h.accessed k hk (hkeeps.ghost k hkk hghost)
    · by_cases hkk : k = key
      · rw [hkk]
        exact hstatus
      · exact hkeeps.data k hkk (h.returned k hk)
  | getVictimKey =>
    obtain ⟨victim, hvictim, hfinds⟩ := h.cache.getVictimKey hmeets
    refine ⟨{ d with returned := victim.toFinset ∪ d.returned }, .victim victim,
      by rw [Arc.step, hvictim]; rfl, h.cache, h.accessed, ?_⟩
    intro k hk
    rcases Finset.mem_union.1 hk with hk | hk
    · exact hfinds.2 k (mem_toFinset.1 hk)
    · exact h.returned k hk
  | evictWithGivenKey key =>
    obtain ⟨s', value, hevict, hinv, hkeeps⟩ :=
      h.cache.evictWithGivenKey (h.returned key hpromised)
    refine ⟨_, .value (some value), by rw [Arc.step, hevict]; rfl, hinv, fun k hk => ?_,
      fun k hk => ?_⟩
    · obtain ⟨hkk, hk⟩ := Finset.mem_erase.1 hk
      exact fun hghost => h.accessed k hk (hkeeps.ghost k hkk hghost)
    · obtain ⟨hkk, hk⟩ := Finset.mem_erase.1 hk
      exact hkeeps.data k hkk (h.returned k hk)

/-- The invariant holds in every run of operations that meet the condition. -/
theorem drivenInv_of_runs {capacityBytes uninitialised : Nat} {tr : List (Action × Output)}
    (h : Runs step Meets (create capacityBytes uninitialised) tr d) : DrivenInv d := by
  refine h.invariant (inv_create capacityBytes uninitialised) fun hinv hmeets hstep => ?_
  obtain ⟨d', out, hstep', hinv'⟩ := hinv.step hmeets
  rw [hstep', some.injEq, Prod.mk.injEq] at hstep
  exact hstep.1 ▸ hinv'

/-- In every run of operations that meet the condition the representation holds, the next such
operation does not fail, and the victim is as it should be. -/
theorem representation_of_runs (capacityBytes uninitialised : Nat) (tr : List (Action × Output))
    (d : Driven) (h : Runs step Meets (create capacityBytes uninitialised) tr d) :
    Correct Meets d := by
  have hinv := drivenInv_of_runs h
  refine ⟨hinv.cache.represents, fun a hmeets => ?_, fun hmeets => ?_⟩
  · obtain ⟨d', out, hstep, -⟩ := hinv.step hmeets
    rw [hstep, Option.isSome_some]
  · obtain ⟨victim, hvictim, hfinds⟩ := hinv.cache.getVictimKey hmeets.2
    exact ⟨victim, hvictim, hinv.cache.victim_of_findsVictim hfinds⟩

/-! ## Concrete runs -/

def firstKey : Key := ⟨[7]⟩
def secondKey : Key := ⟨[8]⟩

/-- Two objects are admitted, the older one is evicted and comes back. -/
def evictAndReturn : List Action :=
  [.get firstKey, .admitObject firstKey (.ofSize 5), .get secondKey,
    .admitObject secondKey (.ofSize 5), .getVictimKey, .evictWithGivenKey firstKey, .get firstKey,
    .admitObject firstKey (.ofSize 9)]

/-- Where the constructor leaves a number above the capacity, the first request for a victim reads
the tail of an empty list. -/
theorem getVictimKey_uninitialised : ¬ ∀ capacityBytes uninitialised tr d,
    Runs step Promised (create capacityBytes uninitialised) tr d → Correct Promised d := by
  intro h
  have hexec : (exec step Promised (create 100 101) []).any
      (fun d => (step d .getVictimKey).isNone) = true := by
    decide +kernel
  obtain ⟨tr, d, hrun, -, hnone⟩ := exists_runs_of_any hexec
  have hsome := (h 100 101 tr d hrun).total .getVictimKey trivial
  rw [Option.isNone_iff_eq_none.1 hnone] at hsome
  exact Bool.false_ne_true hsome

/-- An object that was evicted and admitted again is in the second list. -/
theorem representation_of_runs_evictAndReturn : ∃ tr d, Runs step Meets (create 60 0) tr d ∧
    (d.cache.resident firstKey).map ArcDataItem.lruId = some 2 ∧ Correct Meets d := by
  have hexec : (exec step Meets (create 60 0) evictAndReturn).any (fun d =>
      decide ((d.cache.resident firstKey).map ArcDataItem.lruId = some 2)) = true := by
    decide +kernel
  obtain ⟨tr, d, hrun, -, hd⟩ := exists_runs_of_any hexec
  exact ⟨tr, d, hrun, of_decide_eq_true hd, representation_of_runs 60 0 tr d hrun⟩

end Covered.Cache.Arc
