import Covered.Cache.ArcRepresentation
import Covered.Lib.Draining

/-!
# Eviction from ARC

An eviction turns an object into a ghost, which still has its key in the list and in the lookup map:
of the size only the bytes of the value are gone. It drops at most one ghost. `Shrinks` says this of
every part of an eviction. So what is left when no object is cached is at most `metadataBytes`, the
size without the values; it may exceed the capacity, and then no victim is left to evict.
-/

set_option autoImplicit false

namespace Covered.Cache.Arc

open Common Lib Lib.Checked Lib.Execution ArcCachePolicy LinkedList
open Option hiding bind_eq_some_iff

variable {s t u : ArcCachePolicy} {i it m n : Nat} {key : Key} {value : Value}

/-! ## What an eviction takes off -/

/-- Number of cached objects. -/
def ArcCachePolicy.objects (s : ArcCachePolicy) : Nat := totalBytes (fun _ => 1) lruIds s.dataList

/-- Bytes of the cached values. -/
def ArcCachePolicy.valueBytes (s : ArcCachePolicy) : Nat :=
  totalBytes (fun item => item.value.valuesize) lruIds s.dataList

/-- The size without the cached values. -/
def ArcCachePolicy.metadataBytes (s : ArcCachePolicy) : Nat := s.size - s.valueBytes

/-- `n` objects are gone, and of the size at least their values. -/
structure Shrinks (n : Nat) (s t : ArcCachePolicy) : Prop where
  objects : t.objects + n = s.objects
  size : t.size ≤ s.size
  values : t.size + s.valueBytes ≤ s.size + t.valueBytes
  incomingObjsize : t.incomingObjsize = s.incomingObjsize
  capacityBytes : t.capacityBytes = s.capacityBytes

theorem Shrinks.trans (h : Shrinks m s t) (h' : Shrinks n t u) : Shrinks (m + n) s u where
  objects := by
    have hfirst := h.objects
    have hsecond := h'.objects
    omega
  size := h'.size.trans h.size
  values := by
    have hfirst := h.values
    have hsecond := h'.values
    omega
  incomingObjsize := h'.incomingObjsize.trans h.incomingObjsize
  capacityBytes := h'.capacityBytes.trans h.capacityBytes

theorem size_eraseKey (s : ArcCachePolicy) (key : Key) : (s.eraseKey key).size ≤ s.size := by
  show (if s.size ≤ key.getKeyLength + 8 then 0 else s.size - (key.getKeyLength + 8)) ≤ s.size
  rw [clamped_sub]
  exact Nat.sub_le _ _

/-- Dropping a ghost takes no object off. -/
theorem Inv.shrinks_evictGhost (h : Inv s) (hevict : ArcCachePolicy.evictGhost i s = some t) :
    Inv t ∧ Shrinks 0 s t := by
  cases hback : (s.ghostList i).back with
  | none =>
    rw [ArcCachePolicy.evictGhost, hback] at hevict
    cases hevict
  | some tail =>
    obtain ⟨it, ghost⟩ := tail
    rw [h.evictGhost_eq hback, some.injEq] at hevict
    subst hevict
    have hsize := size_eraseKey (withoutGhost s i it ghost.getSizeForCapacity) ghost.key
    have hle : (withoutGhost s i it ghost.getSizeForCapacity).size ≤ s.size := Nat.sub_le _ _
    exact ⟨(h.forgetGhost (get_of_back hback)).1, rfl, hsize.trans hle,
      Nat.add_le_add_right (hsize.trans hle) _, rfl, rfl⟩

/-- A ghost keeps all bytes of its object but those of the value. -/
theorem Inv.shrinks_evictData (h : Inv s)
    (hevict : ArcCachePolicy.evictData i s ⟨i, false, it⟩ key = some (t, value)) :
    Shrinks 1 s t := by
  have hfound : ∃ item, (s.dataList i).get it = some item ∧ item.key = key := by
    simp only [ArcCachePolicy.evictData, bind_eq_some_iff, require_eq_some_iff] at hevict
    obtain ⟨-, -, item, hget, -, hkey, -⟩ := hevict
    exact ⟨item, hget, hkey⟩
  obtain ⟨item, hget, hkey⟩ := hfound
  rw [h.evictData_eq hget hkey, some.injEq, Prod.mk.injEq] at hevict
  obtain ⟨rfl, -⟩ := hevict
  have hmem := (h.counted.data.mem i it item hget).2
  have hle := h.counted.data.le_size hget
  have htotal := h.counted.dataSize_le hmem
  have hsplit : item.getSizeForCapacity =
      (⟨key, i⟩ : ArcGhostItem).getSizeForCapacity + item.value.valuesize := by
    rw [ArcDataItem.getSizeForCapacity, ArcGhostItem.getSizeForCapacity, hkey]
  have hvalues : (withGhost (withoutData s i it item.getSizeForCapacity) ⟨key, i⟩).valueBytes +
      item.value.valuesize = s.valueBytes :=
    SizedLists.totalBytes_erase (fun item => item.value.valuesize) hmem hget
  refine ⟨SizedLists.totalBytes_erase (fun _ => 1) hmem hget, ?_, ?_, rfl, rfl⟩
  · show s.size - item.getSizeForCapacity + (⟨key, i⟩ : ArcGhostItem).getSizeForCapacity ≤ s.size
    omega
  · have hsize : (withGhost (withoutData s i it item.getSizeForCapacity) ⟨key, i⟩).size =
        s.size - item.getSizeForCapacity + (⟨key, i⟩ : ArcGhostItem).getSizeForCapacity := rfl
    omega

/-- An object that is forgotten takes more along than its value. -/
theorem Inv.shrinks_evictL1DataNoGhost (h : Inv s)
    (hevict : s.evictL1DataNoGhost ⟨1, false, it⟩ key = some (t, value)) : Shrinks 1 s t := by
  have hfound : ∃ item, (s.dataList 1).get it = some item ∧ item.key = key := by
    simp only [ArcCachePolicy.evictL1DataNoGhost, bind_eq_some_iff, require_eq_some_iff] at hevict
    obtain ⟨-, -, item, hget, -, hkey, -⟩ := hevict
    exact ⟨item, hget, hkey⟩
  obtain ⟨item, hget, hkey⟩ := hfound
  rw [h.evictL1DataNoGhost_eq hget hkey, some.injEq, Prod.mk.injEq] at hevict
  obtain ⟨rfl, -⟩ := hevict
  have hmem := (h.counted.data.mem 1 it item hget).2
  have hle := h.counted.data.le_size hget
  have htotal := h.counted.dataSize_le hmem
  have hvalue : item.value.valuesize ≤ item.getSizeForCapacity := Nat.le_add_left _ _
  have hvalues : ((withoutData s 1 it item.getSizeForCapacity).eraseKey key).valueBytes +
      item.value.valuesize = s.valueBytes :=
    SizedLists.totalBytes_erase (fun item => item.value.valuesize) hmem hget
  have hsize := size_eraseKey (withoutData s 1 it item.getSizeForCapacity) key
  have hwithout : (withoutData s 1 it item.getSizeForCapacity).size =
      s.size - item.getSizeForCapacity := rfl
  refine ⟨SizedLists.totalBytes_erase (fun _ => 1) hmem hget, hsize.trans (Nat.sub_le _ _), ?_, rfl,
    rfl⟩
  omega

/-- Dropping a ghost and then evicting an object. -/
theorem Inv.shrinks_evictGhostAndData (h : Inv s)
    (hevict : ((ArcCachePolicy.evictGhost i s).bind fun t =>
      ArcCachePolicy.evictData i t ⟨i, false, it⟩ key) = some (t, value)) : Shrinks 1 s t := by
  obtain ⟨u, hghost, hdata⟩ := bind_eq_some_iff.1 hevict
  obtain ⟨hinv, hfirst⟩ := h.shrinks_evictGhost hghost
  exact hfirst.trans (hinv.shrinks_evictData hdata)

theorem Inv.shrinks_evictObject (h : Inv s)
    (hevict : s.evictObject ⟨i, false, it⟩ key = some (t, value)) : Shrinks 1 s t := by
  rw [ArcCachePolicy.evictObject] at hevict
  split at hevict
  · next hone =>
    obtain rfl : i = 1 := hone
    split at hevict
    · split at hevict
      · exact h.shrinks_evictGhostAndData hevict
      · exact h.shrinks_evictL1DataNoGhost hevict
    · exact h.shrinks_evictData hevict
  · split at hevict
    · next htwo =>
      obtain rfl : i = 2 := htwo
      split at hevict
      · exact h.shrinks_evictGhostAndData hevict
      · exact h.shrinks_evictData hevict
    · cases hevict

/-- The eviction of a cached key. -/
theorem Inv.shrinks_evictWithGivenKey (h : Inv s)
    (hevict : s.evictWithGivenKey key = some (t, some value)) : Shrinks 1 s t := by
  cases hlookup : s.keyLookup.lookup key with
  | none =>
    rw [ArcCachePolicy.evictWithGivenKey, hlookup] at hevict
    cases hevict
  | some entry =>
    obtain ⟨i, isGhost, it⟩ := entry
    simp only [ArcCachePolicy.evictWithGivenKey, hlookup, bind_eq_some_iff, require_eq_some_iff,
      pure_eq_some_iff, Prod.mk.injEq] at hevict
    obtain ⟨-, rfl, ⟨u, value'⟩, hobject, rfl, -⟩ := hevict
    exact h.shrinks_evictObject hobject

/-! ## The last admitted object -/

variable {entry : ArcKeyLookupIter} {capacityBytes uninitialised : Nat}
    {tr : List (Action × Output)}

theorem incomingObjsize_ghostHit (h : s.ghostHit key entry = some t) :
    t.incomingObjsize = s.incomingObjsize ∧ t.capacityBytes = s.capacityBytes := by
  simp only [ArcCachePolicy.ghostHit, decreaseGhostAndTotalSize, bind_eq_some_iff,
    pure_eq_some_iff] at h
  obtain ⟨-, -, item, -, -, -, -, -, -, -, s1, ⟨-, -, rfl⟩, rfl⟩ := h
  exact ⟨rfl, rfl⟩

variable {newValue : Option Value}

theorem incomingObjsize_dataHit (h : s.dataHit key entry newValue = some (t, value)) :
    t.incomingObjsize = s.incomingObjsize ∧ t.capacityBytes = s.capacityBytes := by
  simp only [ArcCachePolicy.dataHit, decreaseDataAndTotalSize, increaseDataAndTotalSize,
    bind_eq_some_iff, pure_eq_some_iff, Prod.mk.injEq] at h
  obtain ⟨item, -, -, -, -, -, s1, ⟨-, -, rfl⟩, s2, ⟨-, -, rfl⟩, rfl, -⟩ := h
  exact ⟨rfl, rfl⟩

variable {result : Option Value}

/-- Only an admission changes what is known of the last admitted object. -/
theorem incomingObjsize_access (h : s.access key newValue = some (t, result)) :
    t.incomingObjsize = s.incomingObjsize ∧ t.capacityBytes = s.capacityBytes := by
  cases hlookup : s.keyLookup.lookup key with
  | none =>
    simp only [ArcCachePolicy.access, hlookup, some.injEq, Prod.mk.injEq] at h
    obtain ⟨rfl, -⟩ := h
    exact ⟨rfl, rfl⟩
  | some entry =>
    simp only [ArcCachePolicy.access, hlookup] at h
    split at h
    · obtain ⟨u, hhit, heq⟩ := map_eq_some_iff.1 h
      cases heq
      exact (incomingObjsize_ghostHit hhit :)
    · obtain ⟨⟨u, old⟩, hhit, heq⟩ := map_eq_some_iff.1 h
      cases heq
      exact (incomingObjsize_dataHit hhit :)

/-- Once a key is known the last admitted object is smaller than the cache. -/
def Admitted (s : ArcCachePolicy) : Prop :=
  (∀ key, s.keyLookup.lookup key = none) ∨ s.incomingObjsize ≤ s.capacityBytes

variable {d d' : Driven}

theorem Admitted.access (h : Admitted s) (haccess : s.access key newValue = some (t, result)) :
    Admitted t := by
  rcases h with hempty | hle
  · simp only [ArcCachePolicy.access, hempty key, some.injEq, Prod.mk.injEq] at haccess
    exact haccess.1 ▸ .inl hempty
  · obtain ⟨hincoming, hcapacity⟩ := incomingObjsize_access haccess
    exact .inr (by rw [hincoming, hcapacity]; exact hle)

theorem Admitted.admitObject (h : Admitted s) (hsize : objectSize key value < s.capacityBytes)
    (hadmitted : s.admitObject key value = some t) : Admitted t := by
  cases hlookup : s.keyLookup.lookup key with
  | some entry =>
    simp only [ArcCachePolicy.admitObject, hlookup, bind_eq_some_iff, pure_eq_some_iff] at hadmitted
    obtain ⟨-, -, rfl⟩ := hadmitted
    exact h
  | none =>
    simp only [ArcCachePolicy.admitObject, hlookup, increaseDataAndTotalSize, bind_eq_some_iff,
      pure_eq_some_iff] at hadmitted
    obtain ⟨s1, ⟨-, -, rfl⟩, rfl⟩ := hadmitted
    right
    dsimp only
    split
    · exact hsize.le
    · exact hsize.le

theorem Admitted.evictWithGivenKey (h : Admitted s) (hinv : Inv s)
    (hevict : s.evictWithGivenKey key = some (t, result)) : Admitted t := by
  cases result with
  | none =>
    cases hlookup : s.keyLookup.lookup key with
    | none =>
      rw [ArcCachePolicy.evictWithGivenKey, hlookup] at hevict
      cases hevict
      exact h
    | some entry =>
      simp only [ArcCachePolicy.evictWithGivenKey, hlookup, bind_eq_some_iff, pure_eq_some_iff,
        Prod.mk.injEq, reduceCtorEq, and_false, exists_false] at hevict
  | some value =>
    have hshrinks := hinv.shrinks_evictWithGivenKey hevict
    rcases h with hempty | hle
    · rw [ArcCachePolicy.evictWithGivenKey, hempty key] at hevict
      cases hevict
    · exact .inr (by rw [hshrinks.incomingObjsize, hshrinks.capacityBytes]; exact hle)

theorem Admitted.step {a : Action} {out : Output} (h : Admitted d.cache) (hinv : DrivenInv d)
    (hmeets : Meets d a) (hstep : step d a = some (d', out)) : Admitted d'.cache := by
  cases a with
  | get key =>
    obtain ⟨⟨s', value⟩, haccess, heq⟩ := map_eq_some_iff.1 hstep
    cases heq
    exact h.access haccess
  | update key value =>
    obtain ⟨⟨s', isCached⟩, hupdate, heq⟩ := map_eq_some_iff.1 hstep
    obtain ⟨⟨s'', old⟩, haccess, heq'⟩ := map_eq_some_iff.1 hupdate
    cases heq'
    cases heq
    exact h.access haccess
  | admitObject key value =>
    obtain ⟨s', hadmitted, heq⟩ := map_eq_some_iff.1 hstep
    cases heq
    exact h.admitObject hmeets.1.2 hadmitted
  | getVictimKey =>
    obtain ⟨victim, -, heq⟩ := map_eq_some_iff.1 hstep
    cases heq
    exact h
  | evictWithGivenKey key =>
    obtain ⟨⟨s', value⟩, hevict, heq⟩ := map_eq_some_iff.1 hstep
    cases heq
    exact h.evictWithGivenKey hinv.cache hevict

theorem admitted_of_runs
    (h : Runs step Meets (create capacityBytes uninitialised) tr d) : Admitted d.cache := by
  have hboth : DrivenInv d ∧ Admitted d.cache := by
    refine h.invariant (P := fun d => DrivenInv d ∧ Admitted d.cache)
      ⟨inv_create capacityBytes uninitialised, .inl fun _ => rfl⟩ ?_
    rintro e a e' out ⟨hinv, hadmitted⟩ hmeets hstep
    obtain ⟨e'', out', hstep', hinv'⟩ := hinv.step hmeets
    rw [hstep', some.injEq, Prod.mk.injEq] at hstep
    obtain ⟨rfl, rfl⟩ := hstep
    exact ⟨hinv', hadmitted.step hinv hmeets hstep'⟩
  exact hboth.2

/-! ## Draining -/

/-- The eviction of the victim. -/
def ArcCachePolicy.evict : ArcCachePolicy → Option ArcCachePolicy :=
  evictForFineGrainedManagement (fun s => s.getVictimKey.map fun victim => (s, victim))
    fun s key => (s.evictWithGivenKey key).map fun r => (r.1, r.2.isSome)

/-- What an eviction needs: if there are objects, the last admitted one is smaller than the
cache. -/
structure CanEvict (s : ArcCachePolicy) : Prop where
  inv : Inv s
  incoming : s.objects ≠ 0 → s.incomingObjsize ≤ s.capacityBytes

theorem objects_eq_zero_iff :
    s.objects = 0 ↔ (s.dataList 1).toList = [] ∧ (s.dataList 2).toList = [] := by
  have hone : ∀ item : ArcDataItem, 0 < 1 := fun _ => Nat.one_pos
  rw [objects, totalBytes, lruIds, Finset.sum_pair (by decide), Nat.add_eq_zero_iff,
    bytes_eq_zero_iff hone, bytes_eq_zero_iff hone]

theorem Inv.objects_ne_zero_iff (h : Inv s) :
    s.objects ≠ 0 ↔ s.dataSize 1 ≠ 0 ∨ s.dataSize 2 ≠ 0 := by
  rw [Ne, objects_eq_zero_iff, ← h.dataSize_eq_zero_iff, ← h.dataSize_eq_zero_iff]
  omega

theorem canEvict_of_runs
    (h : Runs step Meets (create capacityBytes uninitialised) tr d) : CanEvict d.cache := by
  have hinv := (drivenInv_of_runs h).cache
  refine ⟨hinv, fun hobjects => ?_⟩
  rcases admitted_of_runs h with hempty | hle
  · -- a cached object is in the lookup map
    exfalso
    have hnonempty : ∃ i, d.cache.dataSize i ≠ 0 := by
      rcases hinv.objects_ne_zero_iff.1 hobjects with hone | htwo
      · exact ⟨1, hone⟩
      · exact ⟨2, htwo⟩
    obtain ⟨i, hi⟩ := hnonempty
    obtain ⟨it, item, -, hlookup⟩ := hinv.exists_tail hi
    rw [hempty item.key] at hlookup
    cases hlookup
  · exact hle

/-- One call of `evict` with an object cached. -/
theorem CanEvict.evict (h : CanEvict s) (hobjects : s.objects ≠ 0) :
    ∃ t, s.evict = some t ∧ CanEvict t ∧ Shrinks 1 s t := by
  obtain ⟨victim, hvictim, hfinds, hcached⟩ := h.inv.getVictimKey (h.incoming hobjects)
  obtain ⟨key, rfl⟩ :=
    isSome_iff_exists.1 (hfinds.2 (h.inv.objects_ne_zero_iff.1 hobjects))
  obtain ⟨t, value, hevict, hinv, -⟩ := h.inv.evictWithGivenKey (hcached key rfl)
  have hshrinks := h.inv.shrinks_evictWithGivenKey hevict
  refine ⟨t, ?_, ⟨hinv, fun _ => ?_⟩, hshrinks⟩
  · refine evictForFineGrainedManagement_eq_some_iff.2 ⟨s, key, ?_, ?_⟩
    · rw [hvictim, map_some]
    · rw [hevict, map_some, isSome_some]
  · rw [hshrinks.incomingObjsize, hshrinks.capacityBytes]
    exact h.incoming hobjects

/-- Without an object there is no victim. -/
theorem Inv.getVictimKey_ne_some (h : Inv s) (hobjects : s.objects = 0) :
    s.getVictimKey ≠ some (some key) := by
  obtain ⟨hone, htwo⟩ := objects_eq_zero_iff.1 hobjects
  have hsizes : s.dataSize 1 = 0 ∧ s.dataSize 2 = 0 :=
    ⟨h.dataSize_eq_zero_iff.2 hone, h.dataSize_eq_zero_iff.2 htwo⟩
  have hreplace : s.toReplace ≠ some (some key) := by
    rw [ArcCachePolicy.toReplace, if_pos hsizes]
    exact fun heq => (some_ne_none key).symm (some.inj heq)
  rw [ArcCachePolicy.getVictimKey, toEvictMissOnAllQueues, back_eq_none_iff.2 hone]
  split
  · exact hreplace
  · split
    · split
      · exact hreplace
      · exact (some_ne_none _).symm
    · exact hreplace

/-- Evictions empty the cache of objects. -/
theorem drains : Drains CanEvict evict objects (fun s => s.size) where
  removes := by
    intro s h hobjects
    obtain ⟨t, hevict, ht, hshrinks⟩ := h.evict hobjects
    have hcount := hshrinks.objects
    exact ⟨t, hevict, ht, by omega, hshrinks.size⟩
  fails := by
    intro s h hobjects
    rw [eq_none_iff_forall_ne_some]
    intro t hevict
    obtain ⟨u, key, hvictim, -⟩ := evictForFineGrainedManagement_eq_some_iff.1 hevict
    obtain ⟨victim, hsome, heq⟩ := map_eq_some_iff.1 hvictim
    cases heq
    exact h.inv.getVictimKey_ne_some hobjects hsome

/-- The ghosts that are left have at most the bytes of the metadata. -/
theorem CanEvict.size_emptied_le (h : CanEvict s)
    (hempty : Emptied ArcCachePolicy.evict objects s t) : t.size ≤ s.metadataBytes := by
  have hle : t.size + s.valueBytes ≤ s.size := by
    refine drains.size_emptied_le valueBytes (fun u v hu hevict => ?_) (fun u hu => ?_)
      h hempty
    · by_cases hobjects : u.objects = 0
      · rw [drains.fails u hu hobjects] at hevict
        cases hevict
      · obtain ⟨w, hevict', -, hshrinks⟩ := hu.evict hobjects
        rw [hevict] at hevict'
        cases hevict'
        exact hshrinks.values
    · obtain ⟨hone, htwo⟩ := objects_eq_zero_iff.1 hu
      rw [valueBytes, totalBytes, lruIds, Finset.sum_pair (by decide), bytes, hone,
        bytes, htwo]
      rfl
  exact Nat.le_sub_of_add_le hle

end Covered.Cache.Arc
