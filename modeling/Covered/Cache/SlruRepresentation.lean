import Covered.Cache.SlruCachePolicy
import Covered.Lib.PlaceTable

/-!
# Representation and victim choice of the segmented LRU policy

An operation takes an item out of a list, puts an item into a list, or both. `IndexedBut` is the
state between the two: the lists and the lookup map agree on every key but one, which is in no list.
`Inv.moveItem` combines the two with the counters, `Inv.cool` follows the recursion of the cooling
down the lists, and `correct_of_runs` is the result for every run. `valueOfKey` is the value of a
key, and every operation says how it changes this function and the total size.
-/

set_option autoImplicit false

namespace Covered.Cache.Slru

open Common Lib Lib.Checked Lib.Execution SlruCachePolicy
open UnorderedMap LinkedList Function Option List

variable {s s' : SlruCachePolicy} {i j it it' : Nat} {key : Key} {item old : SlruItem}

/-! ## Lists and lookup map -/

theorem lruLists_eraseItem : (s.eraseItem i it).lruLists j =
    if j = i then (s.lruLists i).erase it else s.lruLists j :=
  update_apply s.lruLists i _ j

theorem lruLists_pushFrontItem : (s.pushFrontItem item).lruLists j =
    if j = item.lruId then (s.lruLists item.lruId).pushFront item else s.lruLists j :=
  update_apply s.lruLists item.lruId _ j

theorem get_eraseItem : ((s.eraseItem i it).lruLists j).get it' =
    if j = i ∧ it' = it then none else (s.lruLists j).get it' := by
  rw [lruLists_eraseItem]
  by_cases hj : j = i
  · rw [if_pos hj, get_erase, hj]
    simp
  · rw [if_neg hj, if_neg fun h => hj h.1]

theorem get_pushFrontItem : ((s.pushFrontItem item).lruLists j).get it' =
    if j = item.lruId ∧ it' = (s.lruLists j).next then some item
    else (s.lruLists j).get it' := by
  rw [lruLists_pushFrontItem]
  by_cases hj : j = item.lruId
  · rw [if_pos hj, get_pushFront, ← hj]
    simp
  · rw [if_neg hj, if_neg fun h => hj h.1]

/-- The lists and the lookup map agree on every key but the given one, which is in no list. -/
structure IndexedBut (s : SlruCachePolicy) (key : Key) : Prop where
  denotes : ∀ k lruId lruListIter, k ≠ key →
    (s.keyLookup.lookup k = some ⟨lruId, lruListIter⟩ ↔
      ∃ item, (s.lruLists lruId).get lruListIter = some item ∧ item.key = k)
  inList : ∀ lruId lruListIter item, (s.lruLists lruId).get lruListIter = some item →
    item.key ≠ key ∧ item.lruId = lruId ∧ lruId < nSeg

/-- The lists and the lookup map agree on every key. -/
structure Indexed (s : SlruCachePolicy) : Prop where
  denotes : ∀ key lruId lruListIter, s.keyLookup.lookup key = some ⟨lruId, lruListIter⟩ ↔
    ∃ item, (s.lruLists lruId).get lruListIter = some item ∧ item.key = key
  inList : ∀ lruId lruListIter item, (s.lruLists lruId).get lruListIter = some item →
    item.lruId = lruId ∧ lruId < nSeg

theorem Indexed.eraseItem (h : Indexed s) (hget : (s.lruLists i).get it = some old) :
    IndexedBut (s.eraseItem i it) old.key := by
  have hentry := (h.denotes old.key i it).2 ⟨old, hget, rfl⟩
  refine ⟨fun k lruId lruListIter hk => ?_, fun lruId lruListIter item hitem => ?_⟩
  · rw [get_eraseItem]
    refine (h.denotes k lruId lruListIter).trans ?_
    by_cases hat : lruId = i ∧ lruListIter = it
    · -- the erased item has another key
      obtain ⟨rfl, rfl⟩ := hat
      rw [if_pos ⟨rfl, rfl⟩, hget]
      simp [Ne.symm hk]
    · rw [if_neg hat]
  · rw [get_eraseItem] at hitem
    split at hitem
    · cases hitem
    · next hat =>
      refine ⟨fun hkey => hat ?_, h.inList lruId lruListIter item hitem⟩
      have hsame := (h.denotes old.key lruId lruListIter).2 ⟨item, hitem, hkey⟩
      rw [hentry, some.injEq, SlruKeyLookupIter.mk.injEq] at hsame
      exact ⟨hsame.1.symm, hsame.2.symm⟩

theorem IndexedBut.pushFrontItem (h : IndexedBut s item.key) (hseg : item.lruId < nSeg) :
    Indexed (s.pushFrontItem item) := by
  refine ⟨fun k lruId lruListIter => ?_, fun lruId lruListIter item' hitem => ?_⟩
  · have hlookup : (s.pushFrontItem item).keyLookup =
        s.keyLookup.insert item.key ⟨item.lruId, (s.lruLists item.lruId).next⟩ := rfl
    rw [get_pushFrontItem, hlookup, lookup_insert_eq]
    by_cases hk : k = item.key
    · -- the key of the new item is only at the head of its list
      rw [if_pos hk, some.injEq, SlruKeyLookupIter.mk.injEq]
      constructor
      · rintro ⟨rfl, rfl⟩
        exact ⟨item, if_pos ⟨rfl, rfl⟩, hk.symm⟩
      · rintro ⟨item', hitem, hkey⟩
        split at hitem
        · next hat => exact ⟨hat.1.symm, by rw [hat.2, hat.1]⟩
        · exact absurd (hkey.trans hk) (h.inList lruId lruListIter item' hitem).1
    · rw [if_neg hk, h.denotes k lruId lruListIter hk]
      split
      · next hat =>
        rw [hat.2, get_next]
        simp [Ne.symm hk]
      · rfl
  · rw [get_pushFrontItem] at hitem
    split at hitem
    · next hat =>
      cases hitem
      exact ⟨hat.1.symm, hat.1 ▸ hseg⟩
    · exact (h.inList lruId lruListIter item' hitem).2

theorem Indexed.but_of_lookup (h : Indexed s) (hkey : s.keyLookup.lookup key = none) :
    IndexedBut s key := by
  refine ⟨fun k lruId lruListIter _ => h.denotes k lruId lruListIter,
    fun lruId lruListIter item hitem => ⟨fun heq => ?_, h.inList lruId lruListIter item hitem⟩⟩
  have hsome := (h.denotes key lruId lruListIter).2 ⟨item, hitem, heq⟩
  rw [hkey] at hsome
  cases hsome

theorem IndexedBut.eraseKey (h : IndexedBut s key) :
    Indexed { s with keyLookup := s.keyLookup.erase key } := by
  refine ⟨fun k lruId lruListIter => ?_,
    fun lruId lruListIter item hitem => (h.inList lruId lruListIter item hitem).2⟩
  show (s.keyLookup.erase key).lookup k = _ ↔ _
  rw [lookup_erase_eq]
  by_cases hk : k = key
  · rw [if_pos hk]
    refine iff_of_false (some_ne_none _).symm ?_
    rintro ⟨item, hitem, hkey⟩
    exact (h.inList lruId lruListIter item hitem).1 (hkey.trans hk)
  · rw [if_neg hk]
    exact h.denotes k lruId lruListIter hk

/-! ## Values -/

namespace SlruCachePolicy

/-- The item at a place. -/
def itemAt (s : SlruCachePolicy) (place : SlruKeyLookupIter) : Option SlruItem :=
  (s.lruLists place.lruId).get place.lruListIter

/-- The value of a key. -/
def valueOfKey (s : SlruCachePolicy) (key : Key) : Option Value :=
  (s.resident key).map SlruItem.value

end SlruCachePolicy

theorem place_eq_iff : (⟨j, it'⟩ : SlruKeyLookupIter) = ⟨i, it⟩ ↔ j = i ∧ it' = it :=
  iff_of_eq (SlruKeyLookupIter.mk.injEq j it' i it)

theorem itemAt_eraseItem : (s.eraseItem i it).itemAt = update s.itemAt ⟨i, it⟩ none := by
  funext place
  obtain ⟨j, it'⟩ := place
  rw [update_apply]
  exact get_eraseItem.trans (if_congr place_eq_iff.symm rfl rfl)

theorem itemAt_pushFrontItem : (s.pushFrontItem item).itemAt =
    update s.itemAt ⟨item.lruId, (s.lruLists item.lruId).next⟩ (some item) := by
  funext place
  obtain ⟨j, it⟩ := place
  rw [update_apply]
  refine get_pushFrontItem.trans (if_congr (Iff.trans ?_ place_eq_iff.symm) rfl rfl)
  refine and_congr_right fun hj => ?_
  rw [show j = item.lruId from hj]

theorem itemAt_next : s.itemAt ⟨i, (s.lruLists i).next⟩ = none := get_next

theorem Indexed.indexes (h : Indexed s) : Indexes SlruItem.key s.keyLookup s.itemAt :=
  fun key place => h.denotes key place.lruId place.lruListIter

theorem Indexed.resident_of_get (h : Indexed s) (hget : (s.lruLists i).get it = some item) :
    s.resident item.key = some item := by
  have hplace : s.itemAt ⟨i, it⟩ = some item := hget
  exact h.indexes.found_of_get hplace

/-- An item that is put, with another value, into a list takes the place of the old one. -/
theorem Indexed.resident_move (h : Indexed s) (hget : (s.lruLists i).get it = some old)
    (hkey : item.key = old.key) (k : Key) :
    ((s.eraseItem i it).pushFrontItem item).resident k =
      if k = old.key then some item else s.resident k := by
  have hnext : ((s.eraseItem i it).lruLists item.lruId).next = (s.lruLists item.lruId).next := by
    rw [lruLists_eraseItem]
    split
    · next heq => rw [heq]; rfl
    · rfl
  have hunused : s.itemAt ⟨item.lruId, (s.lruLists item.lruId).next⟩ = none := itemAt_next
  have hplace : s.itemAt ⟨i, it⟩ = some old := hget
  have hmove := h.indexes.found_move (b := item) (k := k) hplace hunused
  show found (s.keyLookup.insert item.key ⟨item.lruId, ((s.eraseItem i it).lruLists
    item.lruId).next⟩) ((s.eraseItem i it).pushFrontItem item).itemAt k = _
  rw [itemAt_pushFrontItem, itemAt_eraseItem, hnext, hkey]
  exact hmove

theorem Indexed.resident_insert (h : Indexed s) (k : Key) :
    (s.pushFrontItem item).resident k = if k = item.key then some item else s.resident k := by
  have hunused : s.itemAt ⟨item.lruId, (s.lruLists item.lruId).next⟩ = none := itemAt_next
  show found (s.keyLookup.insert item.key ⟨item.lruId, (s.lruLists item.lruId).next⟩)
    (s.pushFrontItem item).itemAt k = _
  rw [itemAt_pushFrontItem]
  exact h.indexes.found_insert hunused

theorem Indexed.resident_erase (h : Indexed s) (hget : (s.lruLists i).get it = some old) (k : Key) :
    SlruCachePolicy.resident { s.eraseItem i it with keyLookup := s.keyLookup.erase old.key } k =
      if k = old.key then none else s.resident k := by
  have hplace : s.itemAt ⟨i, it⟩ = some old := hget
  show found (s.keyLookup.erase old.key) (s.eraseItem i it).itemAt k = _
  rw [itemAt_eraseItem]
  exact h.indexes.found_erase hplace

/-! ## Bytes -/

theorem listBytes_eraseItem (hget : (s.lruLists i).get it = some old) :
    (s.eraseItem i it).listBytes j + (if j = i then old.getSizeForCapacity else 0) =
      s.listBytes j := by
  rw [listBytes, listBytes, lruLists_eraseItem]
  by_cases hj : j = i
  · rw [if_pos hj, if_pos hj, hj]
    exact sum_toList_erase SlruItem.getSizeForCapacity hget
  · rw [if_neg hj, if_neg hj, Nat.add_zero]

theorem listBytes_pushFrontItem (s : SlruCachePolicy) (item : SlruItem) (j : Nat) :
    (s.pushFrontItem item).listBytes j =
      s.listBytes j + if j = item.lruId then item.getSizeForCapacity else 0 := by
  rw [listBytes, listBytes, lruLists_pushFrontItem]
  by_cases hj : j = item.lruId
  · rw [if_pos hj, if_pos hj, toList_pushFront, map_cons, sum_cons, hj,
      Nat.add_comm]
  · rw [if_neg hj, if_neg hj, Nat.add_zero]

theorem sum_listBytes_eraseItem (hget : (s.lruLists i).get it = some old) (hi : i < nSeg) :
    ∑ lruId ∈ Finset.range nSeg, (s.eraseItem i it).listBytes lruId + old.getSizeForCapacity =
      ∑ lruId ∈ Finset.range nSeg, s.listBytes lruId := by
  have hsum := Finset.sum_congr (rfl : Finset.range nSeg = _)
    fun lruId _ => listBytes_eraseItem (j := lruId) hget
  rwa [Finset.sum_add_distrib, Finset.sum_ite_eq', if_pos (Finset.mem_range.2 hi)] at hsum

theorem sum_listBytes_pushFrontItem (s : SlruCachePolicy) (item : SlruItem)
    (hseg : item.lruId < nSeg) :
    ∑ lruId ∈ Finset.range nSeg, (s.pushFrontItem item).listBytes lruId =
      ∑ lruId ∈ Finset.range nSeg, s.listBytes lruId + item.getSizeForCapacity := by
  have hsum := Finset.sum_congr (rfl : Finset.range nSeg = _)
    fun lruId _ => listBytes_pushFrontItem s item lruId
  rwa [Finset.sum_add_distrib, Finset.sum_ite_eq', if_pos (Finset.mem_range.2 hseg)] at hsum

theorem lookupBytes_pushFrontItem (s : SlruCachePolicy) (item : SlruItem) :
    (s.pushFrontItem item).lookupBytes +
      (if (s.keyLookup.lookup item.key).isSome then item.key.getKeyLength + 8 else 0) =
        s.lookupBytes + (item.key.getKeyLength + 8) := by
  have hinsert := sumBy_insert
    (fun (key : Key) (entry : SlruKeyLookupIter) => key.getKeyLength + entry.getSizeForCapacity)
    s.keyLookup item.key ⟨item.lruId, (s.lruLists item.lruId).next⟩
  cases hlookup : s.keyLookup.lookup item.key with
  | none =>
    rw [hlookup] at hinsert
    exact hinsert
  | some entry =>
    rw [hlookup] at hinsert
    exact hinsert

theorem lookupBytes_eraseKey {entry : SlruKeyLookupIter}
    (hlookup : s.keyLookup.lookup key = some entry) :
    ({ s with keyLookup := s.keyLookup.erase key } : SlruCachePolicy).lookupBytes +
      (key.getKeyLength + 8) = s.lookupBytes := by
  have herase := sumBy_erase
    (fun (key : Key) (entry : SlruKeyLookupIter) => key.getKeyLength + entry.getSizeForCapacity)
    s.keyLookup key
  rw [hlookup] at herase
  exact herase

theorem listBytes_le_sum (hj : j < nSeg) :
    s.listBytes j ≤ ∑ lruId ∈ Finset.range nSeg, s.listBytes lruId :=
  Finset.single_le_sum (fun _ _ => Nat.zero_le _) (Finset.mem_range.2 hj)

/-! ## The invariant -/

/-- The representation, with a total size that fits into 64 bits. -/
structure Inv (s : SlruCachePolicy) : Prop extends Represents s where
  bounded : s.size < uint64Limit

theorem Represents.indexed (h : Represents s) : Indexed s := ⟨h.denotes, h.inList⟩

/-- A list holds bytes iff it holds an item. -/
theorem Represents.lruNBytes_pos_iff (h : Represents s) :
    s.lruNBytes j > 0 ↔ (s.lruLists j).toList ≠ [] := by
  rw [h.lruNBytes, listBytes]
  cases hlist : (s.lruLists j).toList with
  | nil => simp
  | cons item rest =>
    rw [map_cons, sum_cons, SlruItem.getSizeForCapacity]
    exact iff_of_true (by omega) (cons_ne_nil item rest)

theorem decreaseTotalSize_eq (bytes : Nat) :
    s.decreaseTotalSize bytes = { s with size := s.size - bytes } := by
  rw [decreaseTotalSize, clamped_sub]

theorem decreaseLruAndTotalSize_eq (hi : i < nSeg) (bytes : Nat) :
    s.decreaseLruAndTotalSize bytes i = some { s with
      lruNBytes := update s.lruNBytes i (s.lruNBytes i - bytes)
      size := s.size - bytes } := by
  simp only [decreaseLruAndTotalSize, require_bind hi, decreaseTotalSize_eq, clamped_sub,
    Option.pure_def]

theorem increaseLruAndTotalSize_eq (hi : i < nSeg) (bytes : Nat) :
    s.increaseLruAndTotalSize bytes i = some { s with
      lruNBytes := update s.lruNBytes i ((s.lruNBytes i + bytes) % uint64Limit)
      size := (s.size + bytes) % uint64Limit } := by
  simp only [increaseLruAndTotalSize, require_bind hi, increaseTotalSize, Option.pure_def]

/-- A move keeps the invariant if the total size still fits; apart from the counters it is an
erasure and an insertion. -/
theorem Inv.moveItem (h : Inv s) (item : SlruItem)
    (hget : (s.lruLists old.lruId).get it = some old) (hkey : item.key = old.key)
    (hseg : item.lruId < nSeg)
    (hroom : s.size + item.getSizeForCapacity < uint64Limit + old.getSizeForCapacity) :
    ∃ s', s.moveItem it old item = some s' ∧ Inv s' ∧
      s'.lruLists = ((s.eraseItem old.lruId it).pushFrontItem item).lruLists ∧
      (∀ k, s'.resident k = if k = old.key then some item else s.resident k) ∧
      s'.size + old.getSizeForCapacity = s.size + item.getSizeForCapacity := by
  have hold := (h.inList _ _ _ hget).2
  have hsumErase := sum_listBytes_eraseItem hget hold
  have hsumPush := sum_listBytes_pushFrontItem (s.eraseItem old.lruId it) item hseg
  have hlookup : ((s.eraseItem old.lruId it).pushFrontItem item).lookupBytes = s.lookupBytes := by
    have hbytes := lookupBytes_pushFrontItem (s.eraseItem old.lruId it) item
    have hsome : (s.eraseItem old.lruId it).keyLookup.lookup item.key =
        some ⟨old.lruId, it⟩ := (h.denotes item.key old.lruId it).2 ⟨old, hget, hkey.symm⟩
    rw [hsome, isSome_some, if_pos rfl] at hbytes
    exact Nat.add_right_cancel hbytes
  have hsize := h.size
  have hbounded := h.bounded
  have hindexed : Indexed ((s.eraseItem old.lruId it).pushFrontItem item) := by
    refine IndexedBut.pushFrontItem ?_ hseg
    rw [hkey]
    exact h.indexed.eraseItem hget
  refine ⟨{ (s.eraseItem old.lruId it).pushFrontItem item with
    lruNBytes := ((s.eraseItem old.lruId it).pushFrontItem item).listBytes
    size := s.size - old.getSizeForCapacity + item.getSizeForCapacity }, ?_,
    { denotes := hindexed.denotes, inList := hindexed.inList, lruNBytes := fun _ => rfl,
      size := ?_, bounded := ?_ }, rfl, h.indexed.resident_move hget hkey, ?_⟩
  · -- the counters of the two lists change by the sizes of the items
    have htotal : (s.size - old.getSizeForCapacity + item.getSizeForCapacity) % uint64Limit =
        s.size - old.getSizeForCapacity + item.getSizeForCapacity :=
      Nat.mod_eq_of_lt (by omega)
    have hbytes : update (update s.lruNBytes old.lruId
          (s.lruNBytes old.lruId - old.getSizeForCapacity)) item.lruId
        ((update s.lruNBytes old.lruId (s.lruNBytes old.lruId - old.getSizeForCapacity)
          item.lruId + item.getSizeForCapacity) % uint64Limit) =
        ((s.eraseItem old.lruId it).pushFrontItem item).listBytes := by
      funext k
      have hafter : update s.lruNBytes old.lruId
          (s.lruNBytes old.lruId - old.getSizeForCapacity) =
          (s.eraseItem old.lruId it).listBytes := by
        funext k
        have hlist := listBytes_eraseItem (j := k) hget
        rw [update_apply, h.lruNBytes]
        split
        · next hk =>
          rw [if_pos hk, hk] at hlist
          rw [hk]
          omega
        · next hk =>
          rw [if_neg hk] at hlist
          exact (h.lruNBytes k).trans hlist.symm
      rw [hafter, update_apply, listBytes_pushFrontItem]
      split
      · next hk =>
        have hle := listBytes_le_sum (s := s.eraseItem old.lruId it) hseg
        rw [hk]
        exact Nat.mod_eq_of_lt (by omega)
      · rfl
    simp only [SlruCachePolicy.moveItem, decreaseLruAndTotalSize_eq hold,
      increaseLruAndTotalSize_eq hseg, some_bind, pure_eq_some_iff, eraseItem,
      SlruCachePolicy.pushFrontItem, htotal]
    rw [hbytes]
    rfl
  · show s.size - old.getSizeForCapacity + item.getSizeForCapacity =
      ∑ lruId ∈ Finset.range nSeg,
        ((s.eraseItem old.lruId it).pushFrontItem item).listBytes lruId +
          ((s.eraseItem old.lruId it).pushFrontItem item).lookupBytes
    omega
  · show s.size - old.getSizeForCapacity + item.getSizeForCapacity < uint64Limit
    omega
  · show s.size - old.getSizeForCapacity + item.getSizeForCapacity + old.getSizeForCapacity =
      s.size + item.getSizeForCapacity
    omega

/-! ## Cooling -/

/-- The same values, and the same total size. -/
structure SameValues (s s' : SlruCachePolicy) : Prop where
  valueOfKey : s'.valueOfKey = s.valueOfKey
  size : s'.size = s.size

theorem SameValues.trans {s'' : SlruCachePolicy} (h : SameValues s s') (h' : SameValues s' s'') :
    SameValues s s'' :=
  ⟨h'.valueOfKey.trans h.valueOfKey, h'.size.trans h.size⟩

/-- A move of an unchanged object. -/
theorem sameValues_of_move (hold : s.resident old.key = some old)
    (hresident : ∀ k, s'.resident k = if k = old.key then some item else s.resident k)
    (hkey : item.key = old.key) (hvalue : item.value = old.value)
    (hsize : s'.size + old.getSizeForCapacity = s.size + item.getSizeForCapacity) :
    SameValues s s' := by
  constructor
  · funext k
    rw [valueOfKey, hresident k, valueOfKey]
    split
    · next hk => rw [hk, hold, map_some, map_some, hvalue]
    · rfl
  · have hsame : item.getSizeForCapacity = old.getSizeForCapacity := by
      rw [SlruItem.getSizeForCapacity, SlruItem.getSizeForCapacity, hkey, hvalue]
    omega

/-- Cooling a list that holds an item takes one item out of it and leaves the higher lists alone. -/
theorem Inv.cool {lruId : Nat} (h : Inv s) (hpos : 0 < lruId) (hseg : lruId < nSeg)
    (hne : (s.lruLists lruId).toList ≠ []) :
    ∃ s', cool lruId s = some s' ∧ Inv s' ∧
      (s'.lruLists lruId).toList.length + 1 = (s.lruLists lruId).toList.length ∧
      (∀ k, lruId < k → s'.lruLists k = s.lruLists k) ∧ SameValues s s' := by
  induction lruId generalizing s with
  | zero => exact absurd hpos (Nat.lt_irrefl 0)
  | succ lruId ih =>
    obtain ⟨⟨it, tail⟩, hback⟩ : ∃ tail, (s.lruLists (lruId + 1)).back = some tail :=
      ne_none_iff_exists'.1 fun hnone => hne (back_eq_none_iff.1 hnone)
    have hget := get_of_back hback
    have hlist := (h.inList _ _ _ hget).1
    have htail : (s.lruLists tail.lruId).get it = some tail := hlist.symm ▸ hget
    have hlookup := (h.denotes tail.key _ _).2 ⟨tail, hget, rfl⟩
    obtain ⟨s1, hmove, hinv1, hlists1, hresident1, hsize1⟩ := h.moveItem
      ⟨tail.key, tail.value, lruId⟩ htail rfl (Nat.lt_of_succ_lt hseg)
      (Nat.add_lt_add_right h.bounded _)
    have hresident : s.resident tail.key = some tail := h.indexed.resident_of_get hget
    have hsame1 := sameValues_of_move hresident hresident1 rfl rfl hsize1
    have hlist1 : s1.lruLists (lruId + 1) = (s.lruLists (lruId + 1)).erase it := by
      rw [hlists1, lruLists_pushFrontItem, if_neg (Nat.succ_ne_self lruId), lruLists_eraseItem,
        hlist, if_pos rfl]
    have hhigher1 : ∀ k, lruId + 1 < k → s1.lruLists k = s.lruLists k := by
      intro k hk
      have hne1 : k ≠ lruId := by omega
      have hne2 : k ≠ tail.lruId := by omega
      rw [hlists1, lruLists_pushFrontItem, if_neg hne1, lruLists_eraseItem, if_neg hne2]
    -- the passes of the loop cool the next lower list and leave this one alone
    obtain ⟨s', hloop, ⟨hinv', hkeep, hsame'⟩, -⟩ := whileLoop_spec
      (c := fun s => decide (lruId > 0) && s.isFull lruId) (f := SlruCachePolicy.cool lruId)
      (P := fun t => Inv t ∧ (∀ k, lruId < k → t.lruLists k = s1.lruLists k) ∧ SameValues s1 t)
      (fun t => (t.lruLists lruId).toList.length)
      (by
        rintro t ⟨hinv, hkeep, hsame⟩ hcond
        rw [Bool.and_eq_true, decide_eq_true_eq, isFull, decide_eq_true_eq] at hcond
        have hbytes : (t.lruLists lruId).toList ≠ [] :=
          hinv.lruNBytes_pos_iff.1 (Nat.lt_of_le_of_lt (Nat.zero_le _) hcond.2)
        obtain ⟨t', hcool, hinv', hlength, hhigher, hsame'⟩ := ih hinv hcond.1 (by omega) hbytes
        refine ⟨t', hcool, ⟨hinv', fun k hk => (hhigher k hk).trans (hkeep k hk),
          hsame.trans hsame'⟩, ?_⟩
        show (t'.lruLists lruId).toList.length < (t.lruLists lruId).toList.length
        omega)
      (s := s1) ⟨hinv1, fun _ _ => rfl, rfl, rfl⟩ (Nat.le_refl _)
    refine ⟨s', ?_, hinv', ?_, fun k hk => ?_, hsame1.trans hsame'⟩
    · rw [SlruCachePolicy.cool, bind_eq_bind, require_bind_of hseg, hback]
      simp only [some_bind, require_bind_of hlist, hlookup, isSome_some, require_bind_of,
        hmove]
      exact hloop
    · rw [hkeep _ (Nat.lt_succ_self lruId), hlist1]
      exact length_toList_erase hget
    · rw [hkeep k (by omega), hhigher1 k hk]

/-! ## The operations -/

/-- An access returns the value of the key and exchanges it for the new one. -/
structure Accessed (s s' : SlruCachePolicy) (key : Key) (newValue : Option Value) : Prop where
  valueOfKey : ∀ k, s'.valueOfKey k =
    if k = key then (s.valueOfKey key).map newValue.getD else s.valueOfKey k
  size : ∀ value ∈ s.valueOfKey key,
    s'.size + objectSize key value = s.size + objectSize key (newValue.getD value)
  absent : s.valueOfKey key = none → s' = s

variable {newValue : Option Value} {value : Value}

theorem accessed_of_resident (hvalue : s.valueOfKey old.key = some old.value)
    (hresident : ∀ k, s'.resident k = if k = old.key then some item else s.resident k)
    (hnew : item.value = newValue.getD old.value)
    (hsize : s'.size + objectSize old.key old.value =
      s.size + objectSize old.key (newValue.getD old.value)) :
    Accessed s s' old.key newValue := by
  refine ⟨fun k => ?_, fun value hold => ?_, fun hnone => ?_⟩
  · rw [valueOfKey, hresident k, hvalue]
    split
    · rw [map_some, map_some, hnew]
    · rfl
  · rw [hvalue, mem_def, some.injEq] at hold
    rw [← hold]
    exact hsize
  · rw [hvalue] at hnone
    cases hnone

theorem Accessed.congr {s'' : SlruCachePolicy}
    (h : Accessed s s' key newValue) (hvalue : s.valueOfKey key = some value)
    (hsame : SameValues s' s'') : Accessed s s'' key newValue := by
  refine ⟨fun k => ?_, fun value hold => ?_, fun hnone => ?_⟩
  · rw [hsame.valueOfKey]
    exact h.valueOfKey k
  · rw [hsame.size]
    exact h.size value hold
  · rw [hvalue] at hnone
    cases hnone

/-- An access of a cached key keeps the invariant if it keeps the size of an item of the top list
and the new total size fits. -/
theorem Inv.access (h : Inv s) (key : Key) (newValue : Option Value)
    (hmeets : ∀ item ∈ s.resident key,
      (item.lruId = nSeg - 1 →
        objectSize key (newValue.getD item.value) = objectSize key item.value) ∧
      s.size + objectSize key (newValue.getD item.value) <
        uint64Limit + objectSize key item.value) :
    ∃ s', s.access key newValue = some (s', s.valueOfKey key) ∧ Inv s' ∧
      Accessed s s' key newValue := by
  cases hlookup : s.keyLookup.lookup key with
  | none =>
    have hnone : s.valueOfKey key = none := by
      rw [valueOfKey, resident, hlookup]
      rfl
    refine ⟨s, by rw [SlruCachePolicy.access, hlookup, hnone], h, fun k => ?_,
      fun value hvalue => ?_, fun _ => rfl⟩
    · split
      · next hk => rw [hk, hnone, map_none]
      · rfl
    · rw [hnone] at hvalue
      cases hvalue
  | some entry =>
    obtain ⟨lruId, it⟩ := entry
    obtain ⟨item, hget, rfl⟩ := (h.denotes key lruId it).1 hlookup
    obtain ⟨rfl, hseg⟩ := h.inList _ _ _ hget
    have hresident : s.resident item.key = some item := h.indexed.resident_of_get hget
    have hvalue : s.valueOfKey item.key = some item.value := by
      rw [valueOfKey, hresident, map_some]
    obtain ⟨htop, hroom⟩ := hmeets item hresident
    by_cases hlast : item.lruId = nSeg - 1
    · -- the counters stay, since the size of the item stays
      have hsame := htop hlast
      have hbut : IndexedBut (s.eraseItem item.lruId it) item.key := h.indexed.eraseItem hget
      have hindexed : Indexed ((s.eraseItem item.lruId it).pushFrontItem
          ⟨item.key, newValue.getD item.value, item.lruId⟩) :=
        IndexedBut.pushFrontItem hbut hseg
      have hlists : ∀ k, ((s.eraseItem item.lruId it).pushFrontItem
          ⟨item.key, newValue.getD item.value, item.lruId⟩).listBytes k = s.listBytes k := by
        intro k
        have herase := listBytes_eraseItem (j := k) hget
        rw [listBytes_pushFrontItem]
        simp only [SlruItem.getSizeForCapacity, hsame] at herase ⊢
        exact herase
      have hbytes := lookupBytes_pushFrontItem (s.eraseItem item.lruId it)
        ⟨item.key, newValue.getD item.value, item.lruId⟩
      have hsome : (s.eraseItem item.lruId it).keyLookup.lookup item.key =
          some ⟨item.lruId, it⟩ := hlookup
      rw [hsome, isSome_some, if_pos rfl] at hbytes
      refine ⟨_, ?_,
        { denotes := hindexed.denotes, inList := hindexed.inList,
          lruNBytes := fun k => (h.lruNBytes k).trans (hlists k).symm, size := ?_,
          bounded := h.bounded }, accessed_of_resident hvalue
            (h.indexed.resident_move hget rfl) rfl ?_⟩
      · simp only [SlruCachePolicy.access, hlookup, require_bind hseg, hget, some_bind,
          require_bind, if_pos hlast, Option.pure_def, hvalue]
      · rw [Finset.sum_congr rfl fun k _ => hlists k, Nat.add_right_cancel hbytes]
        exact h.size
      · rw [hsame]
        rfl
    · have hnext : item.lruId + 1 < nSeg := by
        rw [nSeg] at hseg hlast ⊢
        omega
      have hpos : 0 < item.lruId + 1 := Nat.succ_pos _
      have hroomItem : s.size + (SlruItem.mk item.key (newValue.getD item.value)
          (item.lruId + 1)).getSizeForCapacity < uint64Limit + item.getSizeForCapacity := by
        show s.size + (objectSize item.key (newValue.getD item.value) + 4) <
          uint64Limit + (objectSize item.key item.value + 4)
        omega
      obtain ⟨s1, hmove, hinv1, -, hresident1, hsize1⟩ := h.moveItem
        ⟨item.key, newValue.getD item.value, item.lruId + 1⟩ hget rfl hnext hroomItem
      have hsize : s1.size + (objectSize item.key item.value + 4) =
          s.size + (objectSize item.key (newValue.getD item.value) + 4) := hsize1
      have haccessed := accessed_of_resident hvalue hresident1 rfl (by omega)
      obtain ⟨s', hloop, ⟨hinv', hsame⟩, -⟩ := whileLoop_spec
        (c := fun s => s.isFull (item.lruId + 1)) (f := SlruCachePolicy.cool (item.lruId + 1))
        (P := fun t => Inv t ∧ SameValues s1 t)
        (fun t => (t.lruLists (item.lruId + 1)).toList.length)
        (by
          rintro t ⟨hinv, hsame⟩ hcond
          have hbytes := hinv.lruNBytes_pos_iff.1
            (Nat.lt_of_le_of_lt (Nat.zero_le _) (of_decide_eq_true hcond))
          obtain ⟨t', hcool, hinv', hlength, -, hsame'⟩ := hinv.cool hpos hnext hbytes
          exact ⟨t', hcool, ⟨hinv', hsame.trans hsame'⟩, by omega⟩)
        ⟨hinv1, rfl, rfl⟩ (Nat.le_refl _)
      refine ⟨s', ?_, hinv', haccessed.congr hvalue hsame⟩
      simp only [SlruCachePolicy.access, hlookup, require_bind hseg, hget, some_bind, require_bind,
        if_neg hlast, Option.pure_def, hmove, hloop, hvalue]

theorem admissionSegment_lt (bytes : Nat) : s.admissionSegment bytes < nSeg := by
  rw [admissionSegment]
  cases hfind : (range nSeg).find? fun i =>
      decide ((s.lruNBytes i + bytes) % uint64Limit ≤ s.lruMaxNBytes) with
  | none => exact Nat.zero_lt_succ 3
  | some i => exact mem_range.1 (mem_of_find?_eq_some hfind)

theorem Inv.admitObject (h : Inv s) (hmeets : Meets s (.admitObject key value)) :
    ∃ s', s.admitObject key value = some s' ∧ Inv s' ∧ (s.valueOfKey key = none →
      (∀ k, s'.valueOfKey k = if k = key then some value else s.valueOfKey k) ∧
      s'.size = s.size + (objectSize key value + 4) + (key.getKeyLength + 8)) := by
  cases hlookup : s.keyLookup.lookup key with
  | some entry =>
    refine ⟨s, by rw [SlruCachePolicy.admitObject, hlookup], h, fun hnone => ?_⟩
    have hlookup' := h.indexed.indexes.found_eq_none_iff.1 (map_eq_none_iff.1 hnone)
    rw [hlookup] at hlookup'
    cases hlookup'
  | none =>
    have hroom := hmeets (by rw [resident, hlookup]; rfl)
    obtain ⟨nthSeg, hnth⟩ : ∃ n,
        s.admissionSegment (SlruItem.mk key value 0).getSizeForCapacity = n := ⟨_, rfl⟩
    have hseg : nthSeg < nSeg := hnth ▸ admissionSegment_lt _
    have hindexed : Indexed (s.pushFrontItem ⟨key, value, nthSeg⟩) :=
      (h.indexed.but_of_lookup hlookup).pushFrontItem hseg
    have hsum := sum_listBytes_pushFrontItem s ⟨key, value, nthSeg⟩ hseg
    have hbytes := lookupBytes_pushFrontItem s ⟨key, value, nthSeg⟩
    rw [hlookup, isSome_none, if_neg Bool.false_ne_true, Nat.add_zero] at hbytes
    have hlookupBytes : (s.pushFrontItem ⟨key, value, nthSeg⟩).lookupBytes =
      s.lookupBytes + (key.getKeyLength + 8) := hbytes
    have hsize := h.size
    have hitem : (SlruItem.mk key value nthSeg).getSizeForCapacity = objectSize key value + 4 := rfl
    refine ⟨{ s.pushFrontItem ⟨key, value, nthSeg⟩ with
      lruNBytes := (s.pushFrontItem ⟨key, value, nthSeg⟩).listBytes
      size := s.size + (objectSize key value + 4) + (key.getKeyLength + 8) }, ?_,
      { denotes := hindexed.denotes, inList := hindexed.inList, lruNBytes := fun _ => rfl,
        size := ?_, bounded := hroom }, fun _ => ⟨fun k => ?_, rfl⟩⟩
    · have hlists : update s.lruNBytes nthSeg
          ((s.lruNBytes nthSeg + (SlruItem.mk key value nthSeg).getSizeForCapacity) %
            uint64Limit) = (s.pushFrontItem ⟨key, value, nthSeg⟩).listBytes := by
        funext k
        rw [update_apply, listBytes_pushFrontItem]
        by_cases hk : k = nthSeg
        · have hle := listBytes_le_sum (s := s) hseg
          rw [if_pos hk, if_pos hk, hk, h.lruNBytes, hitem]
          exact Nat.mod_eq_of_lt (by omega)
        · rw [if_neg hk, if_neg hk, h.lruNBytes, Nat.add_zero]
      have htotal : ((s.size + (SlruItem.mk key value nthSeg).getSizeForCapacity) % uint64Limit +
          (key.getKeyLength + 8)) % uint64Limit =
            s.size + (objectSize key value + 4) + (key.getKeyLength + 8) := by
        rw [hitem, Nat.mod_eq_of_lt (a := s.size + (objectSize key value + 4)) (by omega),
          Nat.mod_eq_of_lt hroom]
      simp only [SlruCachePolicy.admitObject, hlookup, hnth, increaseLruAndTotalSize_eq hseg,
        some_bind, Option.pure_def, increaseTotalSize, pushFrontItem,
        SlruKeyLookupIter.getSizeForCapacity, hlists, htotal]
    · show s.size + (objectSize key value + 4) + (key.getKeyLength + 8) =
        ∑ lruId ∈ Finset.range nSeg, (s.pushFrontItem ⟨key, value, nthSeg⟩).listBytes lruId +
          (s.pushFrontItem ⟨key, value, nthSeg⟩).lookupBytes
      omega
    · show ((s.pushFrontItem ⟨key, value, nthSeg⟩).resident k).map SlruItem.value = _
      rw [h.indexed.resident_insert]
      split
      · rfl
      · rfl

theorem Inv.evictWithGivenKey (h : Inv s) (key : Key) :
    ∃ s', s.evictWithGivenKey key = some (s', s.valueOfKey key) ∧ Inv s' ∧
      (∀ k, s'.valueOfKey k = if k = key then none else s.valueOfKey k) ∧ s'.size ≤ s.size := by
  cases hlookup : s.keyLookup.lookup key with
  | none =>
    have hnone : s.valueOfKey key = none := by
      rw [valueOfKey, resident, hlookup]
      rfl
    refine ⟨s, by rw [SlruCachePolicy.evictWithGivenKey, hlookup, hnone], h, fun k => ?_, le_refl _⟩
    split
    · next hk => rw [hk, hnone]
    · rfl
  | some entry =>
    obtain ⟨lruId, it⟩ := entry
    obtain ⟨item, hget, rfl⟩ := (h.denotes key lruId it).1 hlookup
    obtain ⟨rfl, hseg⟩ := h.inList _ _ _ hget
    have hvalue : s.valueOfKey item.key = some item.value := by
      rw [valueOfKey, h.indexed.resident_of_get hget, map_some]
    have hindexed := (h.indexed.eraseItem hget).eraseKey
    have hsum := sum_listBytes_eraseItem hget hseg
    have hbytes := lookupBytes_eraseKey (s := s.eraseItem item.lruId it) hlookup
    have hlookupBytes : (s.eraseItem item.lruId it).lookupBytes = s.lookupBytes := rfl
    have hsize := h.size
    have hbounded := h.bounded
    refine ⟨{ s.eraseItem item.lruId it with
      lruNBytes := (s.eraseItem item.lruId it).listBytes
      size := s.size - item.getSizeForCapacity - (item.key.getKeyLength + 8)
      keyLookup := s.keyLookup.erase item.key }, ?_,
      { denotes := hindexed.denotes, inList := hindexed.inList, lruNBytes := fun _ => rfl,
        size := ?_, bounded := ?_ }, fun k => ?_, ?_⟩
    · have hlists : update s.lruNBytes item.lruId
          (s.lruNBytes item.lruId - item.getSizeForCapacity) =
          (s.eraseItem item.lruId it).listBytes := by
        funext k
        have hlist := listBytes_eraseItem (j := k) hget
        rw [update_apply]
        by_cases hk : k = item.lruId
        · rw [if_pos hk, hk] at hlist
          rw [if_pos hk, hk, h.lruNBytes]
          omega
        · rw [if_neg hk, Nat.add_zero] at hlist
          rw [if_neg hk, hlist, h.lruNBytes]
      simp only [SlruCachePolicy.evictWithGivenKey, hlookup, hget, some_bind, require_bind,
        decreaseLruAndTotalSize_eq hseg, decreaseTotalSize_eq, eraseItem,
        SlruKeyLookupIter.getSizeForCapacity, Option.pure_def, hlists, hvalue]
    · show s.size - item.getSizeForCapacity - (item.key.getKeyLength + 8) =
        ∑ lruId ∈ Finset.range nSeg, (s.eraseItem item.lruId it).listBytes lruId +
          ({ s.eraseItem item.lruId it with keyLookup := s.keyLookup.erase item.key } :
            SlruCachePolicy).lookupBytes
      have hsame : ({ s.eraseItem item.lruId it with keyLookup := s.keyLookup.erase item.key } :
          SlruCachePolicy).lookupBytes + (item.key.getKeyLength + 8) = s.lookupBytes := hbytes
      omega
    · show s.size - item.getSizeForCapacity - (item.key.getKeyLength + 8) < uint64Limit
      omega
    · show (SlruCachePolicy.resident { s.eraseItem item.lruId it with
        keyLookup := s.keyLookup.erase item.key } k).map SlruItem.value = _
      rw [h.indexed.resident_erase hget]
      split
      · rfl
      · rfl
    · show s.size - item.getSizeForCapacity - (item.key.getKeyLength + 8) ≤ s.size
      omega

/-! ## The victim -/

/-- The scan returns the tail of the highest list that holds an item. -/
theorem Represents.getVictimKey (h : Represents s) : s.getVictimKey =
    some (((range nSeg).reverse.findSome? fun i => (s.lruLists i).toList.getLast?).map
      SlruItem.key) := by
  have key : ∀ (l : List Nat) (victim : Option Key), l.foldlM (fun victim i =>
      if s.lruNBytes i > 0 then ((s.lruLists i).back).map fun tail => some tail.2.key
      else some victim) victim =
        some (((l.reverse.findSome? fun i => (s.lruLists i).toList.getLast?).map
          SlruItem.key).or victim) := by
    intro l
    induction l with
    | nil => exact fun _ => rfl
    | cons i rest ih =>
      intro victim
      rw [foldlM_cons, reverse_cons, findSome?_append, findSome?_singleton]
      by_cases hbytes : s.lruNBytes i > 0
      · obtain ⟨tail, hback⟩ : ∃ tail, (s.lruLists i).back = some tail :=
          ne_none_iff_exists'.1 fun hnone =>
            h.lruNBytes_pos_iff.1 hbytes (back_eq_none_iff.1 hnone)
        rw [if_pos hbytes, hback, map_some, some_bind, ih,
          toList_getLast_of_back hback]
        cases rest.reverse.findSome? fun i => (s.lruLists i).toList.getLast? with
        | none => rfl
        | some item => rfl
      · have hempty : (s.lruLists i).toList = [] :=
          Decidable.not_not.1 (mt h.lruNBytes_pos_iff.2 hbytes)
        rw [if_neg hbytes, some_bind, ih, hempty, getLast?_nil, or_none]
  rw [SlruCachePolicy.getVictimKey, key, or_none]

/-- While at most one list holds items, the scan returns the tail of the lowest one. -/
theorem Represents.getVictimKey_eq (h : Represents s) (hmeets : Meets s .getVictimKey) :
    s.getVictimKey = some s.leastRecentlyUsed := by
  rw [h.getVictimKey, leastRecentlyUsed]
  have hunique : ∀ l : List Nat, (∀ i ∈ l, i < nSeg) → ∀ i < nSeg, ∀ item,
      (s.lruLists i).toList.getLast? = some item → i ∈ l →
      (l.findSome? fun i => (s.lruLists i).toList.getLast?) = some item := by
    intro l hl i hi item hitem hmem
    cases hfind : l.findSome? fun i => (s.lruLists i).toList.getLast? with
    | none =>
      rw [findSome?_eq_none_iff.1 hfind i hmem] at hitem
      cases hitem
    | some item' =>
      obtain ⟨j, hj, hitem'⟩ := exists_of_findSome?_eq_some hfind
      have hne : ∀ {k item}, (s.lruLists k).toList.getLast? = some item →
          (s.lruLists k).toList ≠ [] := by
        rintro k item hk hnil
        rw [hnil] at hk
        cases hk
      have hsame : i = j := hmeets i hi j (hl j hj) (hne hitem) (hne hitem')
      rw [← hitem', ← hsame, hitem]
  cases hfind : (range nSeg).findSome? fun i => (s.lruLists i).toList.getLast? with
  | none =>
    have hnone : ((range nSeg).reverse.findSome? fun i =>
        (s.lruLists i).toList.getLast?) = none := by
      refine findSome?_eq_none_iff.2 fun i hi => ?_
      exact findSome?_eq_none_iff.1 hfind i (mem_reverse.1 hi)
    rw [hnone]
  | some item =>
    obtain ⟨i, hi, hitem⟩ := exists_of_findSome?_eq_some hfind
    rw [hunique _ (fun j hj => mem_range.1 (mem_reverse.1 hj)) i (mem_range.1 hi)
      item hitem (mem_reverse.2 hi)]

/-- There is a victim iff some key is cached. -/
theorem Represents.leastRecentlyUsed_isSome_iff (h : Represents s) :
    s.leastRecentlyUsed.isSome = true ↔ ∃ key, (s.keyLookup.lookup key).isSome = true := by
  rw [leastRecentlyUsed, isSome_map, findSome?_isSome_iff]
  constructor
  · rintro ⟨i, -, hlast⟩
    obtain ⟨item, hitem⟩ := isSome_iff_exists.1 hlast
    obtain ⟨it, hget⟩ := mem_toList_iff.1 (mem_of_getLast? hitem)
    exact ⟨item.key, by rw [(h.denotes item.key i it).2 ⟨item, hget, rfl⟩]; rfl⟩
  · rintro ⟨key, hkey⟩
    obtain ⟨⟨i, it⟩, hlookup⟩ := isSome_iff_exists.1 hkey
    obtain ⟨item, hget, -⟩ := (h.denotes key i it).1 hlookup
    refine ⟨i, mem_range.2 (h.inList _ _ _ hget).2, ?_⟩
    rw [getLast?_isSome]
    exact ne_nil_of_mem (mem_toList_iff.2 ⟨it, hget⟩)

/-- Where a list holds an item, the scan returns a cached key. -/
theorem Represents.exists_victim (h : Represents s)
    (hne : ∃ i < nSeg, (s.lruLists i).toList ≠ []) : ∃ key value, s.getVictimKey = some (some key) ∧
      s.valueOfKey key = some value := by
  obtain ⟨j, hj, hne⟩ := hne
  have hsome : ((range nSeg).reverse.findSome? fun i =>
      (s.lruLists i).toList.getLast?).isSome = true := by
    rw [findSome?_isSome_iff]
    refine ⟨j, mem_reverse.2 (mem_range.2 hj), ?_⟩
    rw [getLast?_isSome]
    exact hne
  obtain ⟨item, hitem⟩ := isSome_iff_exists.1 hsome
  obtain ⟨i, -, hlast⟩ := exists_of_findSome?_eq_some hitem
  obtain ⟨it, hget⟩ := mem_toList_iff.1 (mem_of_getLast? hlast)
  refine ⟨item.key, item.value, ?_, ?_⟩
  · rw [h.getVictimKey, hitem, map_some]
  · rw [valueOfKey, h.indexed.resident_of_get hget, map_some]

theorem Represents.exists_list_of_valueOfKey (h : Represents s)
    (hvalue : s.valueOfKey key = some value) : ∃ i < nSeg, (s.lruLists i).toList ≠ [] := by
  obtain ⟨item, hitem, -⟩ := map_eq_some_iff.1 hvalue
  obtain ⟨⟨i, it⟩, hget, -⟩ := h.indexed.indexes.found_eq_some_iff.1 hitem
  exact ⟨i, (h.inList _ _ _ hget).2, ne_nil_of_mem (mem_toList_iff.2 ⟨it, hget⟩)⟩

/-- A cache that counts bytes holds an item. -/
theorem Represents.exists_list_of_size (h : Represents s) (hsize : 0 < s.size) :
    ∃ i < nSeg, (s.lruLists i).toList ≠ [] := by
  by_contra hempty
  have hlists : ∀ i < nSeg, s.listBytes i = 0 := by
    intro i hi
    have hnil : (s.lruLists i).toList = [] := by
      by_contra hne
      exact hempty ⟨i, hi, hne⟩
    rw [listBytes, hnil]
    rfl
  have hentries : s.keyLookup.entries = [] := by
    by_contra hne
    obtain ⟨key, ⟨i, it⟩, hlookup⟩ :=
      exists_lookup_of_entries_ne_nil s.keyLookup hne
    obtain ⟨item, hget, -⟩ := (h.denotes key i it).1 hlookup
    have hvalue : s.valueOfKey item.key = some item.value := by
      rw [valueOfKey, h.indexed.resident_of_get hget, map_some]
    exact hempty (h.exists_list_of_valueOfKey hvalue)
  have hlookup : s.lookupBytes = 0 := by
    rw [lookupBytes, sumBy, hentries]
    rfl
  rw [h.size, hlookup, Finset.sum_eq_zero fun i hi => hlists i (Finset.mem_range.1 hi)] at hsize
  exact Nat.lt_irrefl 0 hsize

/-! ## Runs -/

theorem inv_create (capacityBytes : Nat) : Inv (create capacityBytes) where
  denotes := by
    intro key lruId lruListIter
    refine iff_of_false (some_ne_none _).symm ?_
    rintro ⟨item, hget, -⟩
    cases hget
  inList := by
    intro lruId lruListIter item hget
    cases hget
  lruNBytes := fun _ => rfl
  size := rfl
  bounded := by
    show 0 < uint64Limit
    decide

/-- An operation that meets the condition does not abort and keeps the invariant. -/
theorem Inv.step {a : Action} (h : Inv s) (hmeets : Meets s a) :
    ∃ s' out, step s a = some (s', out) ∧ Inv s' := by
  cases a with
  | get key =>
    obtain ⟨s', haccess, hinv, -⟩ := h.access key none
      fun item _ => ⟨fun _ => rfl, Nat.add_lt_add_right h.bounded _⟩
    exact ⟨s', .value (s.valueOfKey key),
      by rw [Slru.step, SlruCachePolicy.get, haccess]; rfl, hinv⟩
  | update key value =>
    obtain ⟨s', haccess, hinv, -⟩ := h.access key (some value) hmeets
    exact ⟨s', .flag (s.valueOfKey key).isSome,
      by rw [Slru.step, SlruCachePolicy.update, haccess]; rfl, hinv⟩
  | admitObject key value =>
    obtain ⟨s', hadmitted, hinv, -⟩ := h.admitObject hmeets
    exact ⟨s', .void, by rw [Slru.step, hadmitted]; rfl, hinv⟩
  | getVictimKey =>
    exact ⟨s, .victim s.leastRecentlyUsed, by
      rw [Slru.step, h.getVictimKey_eq hmeets]; rfl, h⟩
  | evictWithGivenKey key =>
    obtain ⟨s', hevict, hinv, -⟩ := h.evictWithGivenKey key
    exact ⟨s', .value (s.valueOfKey key), by rw [Slru.step, hevict]; rfl, hinv⟩

/-- What should hold in every reached state: the representation, no abort of an allowed operation,
and the victim. -/
structure Correct (C : SlruCachePolicy → Action → Prop) (s : SlruCachePolicy) : Prop where
  represents : Represents s
  total : ∀ a, C s a → (step s a).isSome = true
  victim : C s .getVictimKey → s.getVictimKey = some s.leastRecentlyUsed
  nonempty : s.leastRecentlyUsed.isSome = true ↔ ∃ key, (s.keyLookup.lookup key).isSome = true

/-- In every run of operations that meet the condition the representation holds, the next such
operation does not abort, and the victim is the least recently used key of the lowest list. -/
theorem correct_of_runs (capacityBytes : Nat) (tr : List (Action × Output)) (s : SlruCachePolicy)
    (h : Runs step Meets (create capacityBytes) tr s) : Correct Meets s := by
  have hinv : Inv s := by
    refine h.invariant (inv_create capacityBytes) fun hinv hmeets hstep => ?_
    obtain ⟨s', out, hstep', hinv'⟩ := hinv.step hmeets
    rw [hstep', Option.some.injEq, Prod.mk.injEq] at hstep
    exact hstep.1 ▸ hinv'
  refine ⟨hinv.toRepresents, fun a hmeets => ?_, hinv.getVictimKey_eq,
    hinv.leastRecentlyUsed_isSome_iff⟩
  obtain ⟨s', out, hstep, -⟩ := hinv.step hmeets
  rw [hstep, Option.isSome_some]

/-! ## Concrete runs -/

def smallKey : Key := ⟨[7]⟩

/-- A key is admitted and read until it is in the top list. -/
def promote : List Action :=
  [.admitObject smallKey (.ofSize 5), .get smallKey, .get smallKey, .get smallKey]

/-- Whether the counter of the top list differs from the bytes of the list. -/
def miscounts (s : SlruCachePolicy) : Bool := decide (s.lruNBytes 3 ≠ s.listBytes 3)

/-- An update of an item of the top list with a larger value leaves the counter as it was. -/
theorem update_miscounts : ¬ ∀ capacityBytes tr s,
    Runs step anyAction (create capacityBytes) tr s → Correct anyAction s := by
  intro h
  have hexec : (exec step anyAction (create 400)
      (promote ++ [.update smallKey (.ofSize 9)])).any miscounts = true := by
    decide +kernel
  obtain ⟨tr, s, hrun, -, hs⟩ := exists_runs_of_any hexec
  exact of_decide_eq_true hs ((h 400 tr s hrun).represents.lruNBytes 3)

/-- The key in the top list is updated with a value of the same size and is the victim. -/
theorem correct_of_runs_promote : ∃ tr s, Runs step Meets (create 400) tr s ∧
    s.getVictimKey = some (some smallKey) ∧ Correct Meets s := by
  have hexec : (exec step Meets (create 400) (promote ++ [.update smallKey (.ofSize 5),
      .getVictimKey])).any (fun s => decide (s.getVictimKey = some (some smallKey))) = true := by
    decide +kernel
  obtain ⟨tr, s, hrun, -, hs⟩ := exists_runs_of_any hexec
  exact ⟨tr, s, hrun, of_decide_eq_true hs, correct_of_runs 400 tr s hrun⟩

end Covered.Cache.Slru
