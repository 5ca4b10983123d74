import Covered.Cache.SlruRepresentation
import Covered.Cache.WtinylfuCachePolicy
import Covered.Lib.Departures

/-!
# Representation and victims of the W-TinyLFU policy

`WindowWf` is about the window alone, so that it also holds while an object is in both caches on its
way to the main cache. `Inv` adds the invariant of the main cache, that no key is in both, and two
bounds: an object of the window fits into the empty main cache, and the bytes of all objects are a
64-bit number. The first is why the main cache has a victim whenever it has no room.

`Loop` is the invariant of an eviction. A pass takes an object out of the window, or it is the last
one. An object may enter the main cache and become a victim in the same eviction; `Departed` says
that the victims are still what was cached before and is not cached any more.
-/

set_option autoImplicit false

namespace Covered.Cache.Wtinylfu

open Common Lib Lib.Checked Lib.Execution WtinylfuCachePolicy UnorderedMap LinkedList Function CBF
open Option hiding bind_eq_some_iff

variable {hash : KeyHash} {s s' : WtinylfuCachePolicy} {key k : Key} {value : Value}
  {item : WtinylfuItem} {it : Nat}

/-! ## The filter -/

variable {c : CBF}

/-- An access of the filter does not fail if the filter has counters. -/
theorem CBF.access_isSome (hc : c.counterNum ≠ 0) (hash : KeyHash) (key : Key)
    (isUpdate : Bool) : ∃ c' count, c.access hash key isUpdate = some (c', count) ∧
      c'.counterNum = c.counterNum := by
  have hvalues : ∀ i ∈ c.hashValues hash key, i < c.counterNum := by
    intro i hi
    obtain ⟨seed, -, rfl⟩ := List.mem_map.1 hi
    exact Nat.mod_lt _ (Nat.pos_of_ne_zero hc)
  simp only [access, require_bind hc, require_bind hvalues]
  split
  · exact ⟨_, _, rfl, rfl⟩
  · exact ⟨_, _, rfl, rfl⟩

theorem estimate_isSome (hc : c.counterNum ≠ 0) (hash : KeyHash) (key : Key) :
    ∃ count, c.estimate hash key = some count := by
  obtain ⟨c', count, haccess, -⟩ := access_isSome hc hash key false
  exact ⟨count, by rw [estimate, haccess, map_some]⟩

theorem CBF.update_isSome (hc : c.counterNum ≠ 0) (hash : KeyHash) (key : Key) :
    ∃ c', c.update hash key = some c' ∧ c'.counterNum = c.counterNum := by
  obtain ⟨c', count, haccess, hnum⟩ := access_isSome hc hash key true
  exact ⟨c', by rw [update, haccess, map_some], hnum⟩

/-! ## The window -/

/-- The window matches its table and counter and holds objects that the main cache can take. -/
structure WindowWf (s : WtinylfuCachePolicy) : Prop where
  window : Indexes WtinylfuItem.key s.keyLookupForWindow s.windowCache.get
  windowSize : s.windowSize = s.windowBytes
  objects : ∀ it item, s.windowCache.get it = some item →
    ObjectFits item.key item.value ∧ objectSize item.key item.value ≤ s.windowCacheMaxBytes

theorem WindowWf.valueInWindow_of_get (h : WindowWf s) (hget : s.windowCache.get it = some item) :
    s.valueInWindow item.key = some item.value := by
  rw [valueInWindow, h.window.found_of_get hget, map_some]

/-- The window without one of its objects. -/
def withoutObject (s : WtinylfuCachePolicy) (it : Nat) (item : WtinylfuItem) :
    WtinylfuCachePolicy :=
  { s with
    windowSize := s.windowSize - item.getSizeForCapacity - entryBytes item.key
    windowCache := s.windowCache.erase it
    keyLookupForWindow := s.keyLookupForWindow.erase item.key }

/-- The object counts in the bytes of the window. -/
theorem WindowWf.windowBytes_withoutObject (h : WindowWf s)
    (hget : s.windowCache.get it = some item) :
    (withoutObject s it item).windowBytes + item.getSizeForCapacity + entryBytes item.key =
      s.windowBytes := by
  have hbytes := bytes_erase WtinylfuItem.getSizeForCapacity hget
  have htable := sumBy_erase (fun (k : Key) (_ : Nat) => entryBytes k)
    s.keyLookupForWindow item.key
  rw [h.window.lookup_of_get hget, elim_some] at htable
  have hafter : (withoutObject s it item).windowBytes =
      (s.windowCache.erase it).bytes WtinylfuItem.getSizeForCapacity +
        sumBy (fun k _ => entryBytes k) (s.keyLookupForWindow.erase item.key) := rfl
  rw [hafter, windowBytes]
  omega

theorem WindowWf.removeFromWindow (h : WindowWf s) (hget : s.windowCache.get it = some item) :
    s.removeFromWindow it item = some (withoutObject s it item) ∧
      WindowWf (withoutObject s it item) ∧
      (∀ k, (withoutObject s it item).valueInWindow k =
        if k = item.key then none else s.valueInWindow k) ∧
      (withoutObject s it item).windowSize + item.getSizeForCapacity + entryBytes item.key =
        s.windowSize := by
  have hbytes := h.windowBytes_withoutObject hget
  have hsize := h.windowSize
  have hlookup : (s.keyLookupForWindow.lookup item.key).isSome = true := by
    rw [h.window.lookup_of_get hget, isSome_some]
  have herase : (withoutObject s it item).windowCache.get =
      update s.windowCache.get it none := get_erase_eq
  have hsizeAfter :
      (withoutObject s it item).windowSize = (withoutObject s it item).windowBytes := by
    show s.windowSize - item.getSizeForCapacity - entryBytes item.key = _
    omega
  refine ⟨?_, ⟨?_, hsizeAfter, ?_⟩, fun k => ?_, ?_⟩
  · simp only [WtinylfuCachePolicy.removeFromWindow, require_bind hlookup, pure_def,
      decreaseWindowSize, clamped_sub]
    rfl
  · rw [herase]
    exact h.window.erase hget
  · intro it' item' hget'
    rw [herase, update_apply] at hget'
    split at hget'
    · cases hget'
    · exact h.objects it' item' hget'
  · rw [valueInWindow, herase]
    show (found (s.keyLookupForWindow.erase item.key) _ k).map _ = _
    rw [h.window.found_erase hget]
    split
    · rfl
    · rfl
  · omega

/-! ## The invariant -/

/-- The window and the main cache are well formed and share no key, every object of the window fits
into the empty main cache, and all bytes together are a 64-bit number. -/
structure Inv (s : WtinylfuCachePolicy) : Prop extends WindowWf s where
  main : Slru.Inv s.mainCache
  disjoint : ∀ key, s.valueInWindow key = none ∨ s.valueInMain key = none
  counters : s.cbf.counterNum ≠ 0
  room : s.windowCacheMaxBytes + 4 ≤ s.mainCacheMaxBytes
  bounded : footprint s < uint64Limit

theorem Inv.represents (h : Inv s) : Represents s := ⟨h.window, h.windowSize, h.disjoint⟩

/-- The main cache is exchanged for one with no new keys. -/
theorem Inv.setMain (h : Inv s) {main : Slru.SlruCachePolicy} (hmain : Slru.Inv main)
    (hkeys : ∀ k, s.valueInMain k = none → main.valueOfKey k = none)
    (hbounded : main.size + s.windowSize + 4 * s.windowCache.toList.length < uint64Limit) :
    Inv { s with mainCache := main } where
  toWindowWf := ⟨h.window, h.windowSize, h.objects⟩
  main := hmain
  disjoint k := (h.disjoint k).imp_right (hkeys k)
  counters := h.counters
  room := h.room
  bounded := hbounded

/-- The filter is exchanged for one with as many counters. -/
theorem Inv.setCbf (h : Inv s) {cbf : CBF} (hnum : cbf.counterNum = s.cbf.counterNum)
    (requestBytes : Nat) : Inv { s with cbf := cbf, requestBytesForMain := requestBytes } where
  toWindowWf := ⟨h.window, h.windowSize, h.objects⟩
  main := h.main
  disjoint := h.disjoint
  counters := by
    rw [hnum]
    exact h.counters
  room := h.room
  bounded := h.bounded

/-- An object of the window leaves the window. -/
theorem Inv.removeFromWindow (h : Inv s) (hget : s.windowCache.get it = some item) :
    s.removeFromWindow it item = some (withoutObject s it item) ∧ Inv (withoutObject s it item) ∧
      ∀ k, (withoutObject s it item).cached k = if k = item.key then none else s.cached k := by
  obtain ⟨hremove, hwf, hvalue, hsize⟩ := h.toWindowWf.removeFromWindow hget
  have hlength := length_toList_erase hget
  have hbounded := h.bounded
  refine ⟨hremove, ⟨hwf, h.main, fun k => ?_, h.counters, h.room, ?_⟩, fun k => ?_⟩
  · rw [hvalue k]
    split
    · exact .inl rfl
    · exact h.disjoint k
  · rw [footprint] at hbounded ⊢
    show s.mainCache.size + _ + 4 * (s.windowCache.erase it).toList.length < _
    omega
  · rw [cached, hvalue k]
    split
    · next hk =>
      have hnone := (h.disjoint item.key).resolve_left (by
        rw [h.valueInWindow_of_get hget]
        exact some_ne_none _)
      rw [hk, none_or]
      exact hnone
    · rfl

/-- An object of the window moves to the main cache and keeps its value. -/
theorem Inv.moveToMain (h : Inv s) (hget : s.windowCache.get it = some item) :
    ∃ s', s.moveToMain it item = some s' ∧ Inv s' ∧ (∀ k, s'.cached k = s.cached k) ∧
      s'.windowCache = s.windowCache.erase it ∧ s'.Nonempty := by
  have hvalue := h.valueInWindow_of_get hget
  have hmainNone : s.mainCache.valueOfKey item.key = none :=
    (h.disjoint item.key).resolve_left (by
      rw [hvalue]
      exact some_ne_none _)
  obtain ⟨hremove, -, hwindow, hsize⟩ := h.toWindowWf.removeFromWindow hget
  have hlength := length_toList_erase hget
  have hbounded := h.bounded
  have hitem : item.getSizeForCapacity = objectSize item.key item.value := rfl
  have hentry : entryBytes item.key = item.key.getKeyLength + 8 := rfl
  rw [footprint] at hbounded
  have hmeets : Slru.Meets s.mainCache (.admitObject item.key item.value) := by
    intro _
    omega
  obtain ⟨main, hadmitted, hmain, hafter⟩ := h.main.admitObject hmeets
  obtain ⟨hvalues, hmainSize⟩ := hafter hmainNone
  -- the key is in both caches until it leaves the window
  have hwf : WindowWf { s with mainCache := main } := ⟨h.window, h.windowSize, h.objects⟩
  obtain ⟨hremove', hwf', -, -⟩ := hwf.removeFromWindow hget
  refine ⟨withoutObject { s with mainCache := main } it item, ?_,
    ⟨hwf', hmain, fun k => ?_, h.counters, h.room, ?_⟩, fun k => ?_, rfl, .inr ?_⟩
  · rw [WtinylfuCachePolicy.moveToMain, hadmitted]
    exact hremove'
  · show (withoutObject s it item).valueInWindow k = none ∨ main.valueOfKey k = none
    rw [hwindow k, hvalues k]
    split
    · exact .inl rfl
    · exact h.disjoint k
  · show main.size + (withoutObject s it item).windowSize +
      4 * (s.windowCache.erase it).toList.length < uint64Limit
    omega
  · show ((withoutObject s it item).valueInWindow k).or (main.valueOfKey k) = s.cached k
    rw [hwindow k, hvalues k]
    split
    · next hk => rw [none_or, hk, cached, hvalue, some_or]
    · rfl
  · apply hmain.exists_list_of_valueOfKey
    exact (hvalues item.key).trans (if_pos rfl)

/-! ## Eviction -/

/-- The state of the loop: what has left the cache are the victims; the loop goes on only while
something is cached, and ends with a victim. -/
structure Loop (before : WtinylfuCachePolicy) (e : Eviction) : Prop where
  inv : Inv e.cache
  departed : Departed before.cached e.cache.cached e.victims
  nonempty : e.evicted = false → e.cache.Nonempty
  victims : e.evicted = true → e.victims ≠ ∅

theorem insertNew_ne_empty (victims : Victims) (key : Key) (value : Value) :
    insertNew victims key value ≠ ∅ := by
  intro hempty
  have hlookup := lookup_insertNew victims key key value
  rw [hempty, if_pos rfl] at hlookup
  cases hold : victims.lookup key with
  | none =>
    rw [hold] at hlookup
    cases hlookup
  | some value =>
    rw [hold] at hlookup
    cases hlookup

/-- Where the main cache holds an object, it has a cached victim. -/
theorem Inv.mainVictim (h : Inv s) (hne : ∃ i < Slru.nSeg, (s.mainCache.lruLists i).toList ≠ []) :
    ∃ key value, s.mainVictim = some key ∧ s.valueInMain key = some value := by
  obtain ⟨key, value, hvictim, hvalue⟩ := h.main.exists_victim hne
  exact ⟨key, value, by rw [WtinylfuCachePolicy.mainVictim, hvictim]; rfl, hvalue⟩

variable {before : WtinylfuCachePolicy} {e : Eviction}

/-- An object of the main cache becomes a victim. -/
theorem Loop.evictFromMain (h : Loop before e) (hvalue : e.cache.valueInMain key = some value) :
    ∃ main, evictFromMain e key = some { e with
        cache := { e.cache with mainCache := main }
        victims := insertNew e.victims key value } ∧
      Inv { e.cache with mainCache := main } ∧
      Departed before.cached (WtinylfuCachePolicy.cached { e.cache with mainCache := main })
        (insertNew e.victims key value) := by
  have hinv := h.inv
  obtain ⟨main, hevict, hmain, hvalues, hsize⟩ := hinv.main.evictWithGivenKey key
  have hvalueOf : e.cache.mainCache.valueOfKey key = some value := hvalue
  have hwindow : e.cache.valueInWindow key = none :=
    (hinv.disjoint key).resolve_right (by
      rw [hvalue]
      exact some_ne_none _)
  have hbounded := hinv.bounded
  rw [footprint] at hbounded
  refine ⟨main, ?_, hinv.setMain hmain (fun k hk => ?_) (by omega), ?_⟩
  · simp only [Wtinylfu.WtinylfuCachePolicy.evictFromMain, hevict, hvalueOf, some_bind,
      pure_def]
  · rw [hvalues k]
    split
    · rfl
    · exact hk
  · apply h.departed.remove key
    · rw [cached, hwindow, none_or, hvalue]
    · intro k
      show (e.cache.valueInWindow k).or (main.valueOfKey k) = _
      rw [hvalues k]
      split
      · next hk => rw [hk, hwindow, or_none]
      · rfl

/-- The filter is updated after a pass. -/
theorem Loop.setCbf (h : Loop before e) (hash : KeyHash) (key : Key) :
    ∃ cbf, e.cache.cbf.update hash key = some cbf ∧
      Loop before { e with cache := { e.cache with cbf := cbf } } := by
  obtain ⟨cbf, hupdate, hnum⟩ := update_isSome h.inv.counters hash key
  exact ⟨cbf, hupdate, h.inv.setCbf hnum e.cache.requestBytesForMain, h.departed, h.nonempty,
    h.victims⟩

/-- An object of the window that does not fit into the main cache. -/
theorem Inv.main_nonempty_of_full (h : Inv s) (hget : s.windowCache.get it = some item)
    (hfull : s.hasRoom item ≠ true) :
    ∃ i < Slru.nSeg, (s.mainCache.lruLists i).toList ≠ [] := by
  obtain ⟨hfits, hsmall⟩ := h.objects it item hget
  have hroom := h.room
  have hobjsize : objectSize item.key item.value = item.key.getKeyLength + item.value.valuesize :=
    Nat.mod_eq_of_lt hfits
  apply h.main.exists_list_of_size
  -- an empty main cache has room for the object
  by_contra hempty
  apply hfull
  apply decide_eq_true
  have hmod := Nat.mod_le (s.mainCache.size + item.key.getKeyLength + item.value.valuesize + 4)
    uint64Limit
  omega

/-- The two victims compete: one of them is evicted, and the window loses its tail. -/
theorem Loop.compete (h : Loop before e) (hget : e.cache.windowCache.get it = some item)
    (hfull : e.cache.hasRoom item ≠ true) :
    ∃ e', compete hash e it item = some e' ∧ Loop before e' ∧
      e'.cache.windowCache = e.cache.windowCache.erase it := by
  have hinv := h.inv
  obtain ⟨mainKey, mainValue, hvictim, hvalue⟩ :=
    hinv.mainVictim (hinv.main_nonempty_of_full hget hfull)
  obtain ⟨windowFrequency, hwindow⟩ := estimate_isSome hinv.counters hash item.key
  obtain ⟨mainFrequency, hmain⟩ := estimate_isSome hinv.counters hash mainKey
  simp only [WtinylfuCachePolicy.compete, hvictim, hwindow, hmain, bind_eq_bind,
    bind_some]
  split
  · -- the victim of the main cache makes room for the tail of the window
    obtain ⟨main, hevict, hinvEvict, hdeparted⟩ := h.evictFromMain hvalue
    obtain ⟨s', hmove, hinv', hsame, hcache, hnonempty⟩ := hinvEvict.moveToMain hget
    refine ⟨{ e with cache := s', victims := insertNew e.victims mainKey mainValue },
      ?_, ⟨hinv', hdeparted.congr hsame, fun _ => hnonempty,
        fun _ => insertNew_ne_empty e.victims mainKey mainValue⟩, hcache⟩
    simp only [hevict, bind_some, hmove, pure_def]
  · -- the tail of the window is evicted
    obtain ⟨hremove, hinv', hcached⟩ := hinv.removeFromWindow hget
    refine ⟨{
        cache := withoutObject e.cache it item
        victims := insertNew e.victims item.key item.value
        evicted := true }, ?_, ⟨hinv', h.departed.remove item.key ?_ hcached, fun hgoing => ?_,
      fun _ => insertNew_ne_empty e.victims item.key item.value⟩, rfl⟩
    · simp only [hremove, bind_some, pure_def]
    · rw [cached, hinv.valueInWindow_of_get hget, some_or]
    · cases hgoing

/-- Passes that remain at most. -/
def remaining (e : Eviction) : Nat :=
  if e.evicted = true then 0 else e.cache.windowCache.toList.length + 1

/-- A pass takes an object out of the window or ends the loop. -/
theorem Loop.pass (h : Loop before e) (hgoing : e.evicted = false) :
    ∃ e', pass hash e = some e' ∧ Loop before e' ∧ remaining e' < remaining e := by
  have hinv := h.inv
  have hremaining : remaining e = e.cache.windowCache.toList.length + 1 := by
    rw [remaining, hgoing]
    exact if_neg Bool.false_ne_true
  cases hback : e.cache.windowCache.back with
  | none =>
    -- the window is empty, so the main cache is not
    have hempty := back_eq_none_iff.1 hback
    have hne := (h.nonempty hgoing).resolve_left fun hnot => hnot hempty
    obtain ⟨mainKey, mainValue, hvictim, hvalue⟩ := hinv.mainVictim hne
    obtain ⟨main, hevict, hinv', hdeparted⟩ := h.evictFromMain hvalue
    refine ⟨{
        cache := { e.cache with mainCache := main }
        victims := insertNew e.victims mainKey mainValue
        evicted := true }, ?_, ⟨hinv', hdeparted, fun hgoing => ?_,
      fun _ => insertNew_ne_empty e.victims mainKey mainValue⟩, ?_⟩
    · simp only [WtinylfuCachePolicy.pass, hback, hvictim, hevict, some_bind, pure_def]
    · cases hgoing
    · rw [hremaining]
      exact Nat.succ_pos _
  | some tail =>
    obtain ⟨it, item⟩ := tail
    have hget := get_of_back hback
    obtain ⟨e', hmove, hloop, hcache⟩ : ∃ e', windowMove hash e it item = some e' ∧
        Loop before e' ∧ e'.cache.windowCache = e.cache.windowCache.erase it := by
      rw [windowMove]
      split
      · obtain ⟨s', hmove, hinv', hsame, hcache, hnonempty⟩ := hinv.moveToMain hget
        refine ⟨{ e with cache := s' }, ?_, ⟨hinv', h.departed.congr hsame, fun _ => hnonempty,
          h.victims⟩, hcache⟩
        rw [hmove, map_some]
      · next hfull => exact h.compete hget hfull
    obtain ⟨cbf, hupdate, hloop'⟩ := hloop.setCbf hash item.key
    refine ⟨_, ?_, hloop', ?_⟩
    · simp only [WtinylfuCachePolicy.pass, hback, hmove, hupdate, some_bind, pure_def]
    · have hlength := length_toList_erase hget
      rw [hremaining, remaining]
      show (if e'.evicted = true then 0 else e'.cache.windowCache.toList.length + 1) < _
      rw [hcache]
      split
      · exact Nat.succ_pos _
      · omega

/-- An eviction of a cache that is not empty evicts what it reports, and reports something. -/
theorem Inv.evictNoGivenKey (h : Inv s) (hash : KeyHash) (hne : s.Nonempty) :
    ∃ s' victims, s.evictNoGivenKey hash ∅ = some (s', victims) ∧ Inv s' ∧ victims ≠ ∅ ∧
      Departed s.cached s'.cached victims := by
  have hstart : Loop s { cache := s, victims := ∅, evicted := false } :=
    ⟨h, Departed.refl s.cached, fun _ => hne, fun htrue => absurd htrue Bool.false_ne_true⟩
  obtain ⟨e, hloop, hend, hevicted⟩ := whileLoop_spec (c := fun e : Eviction => !e.evicted)
    (f := WtinylfuCachePolicy.pass hash) (P := Loop s) remaining
    (fun e he hgoing => he.pass ((Bool.not_eq_true' _).mp hgoing)) hstart
    (le_refl (s.windowCache.toList.length + 1))
  refine ⟨e.cache, e.victims, ?_, hend.inv, hend.victims ?_, hend.departed⟩
  · simp only [WtinylfuCachePolicy.evictNoGivenKey, hloop, some_bind, pure_def]
  · exact (Bool.not_eq_false' _).mp hevicted

/-! ## Accesses and admission -/

/-- The window with one of its objects exchanged for another of the same key at its head. -/
def withMovedObject (s : WtinylfuCachePolicy) (it : Nat) (old item : WtinylfuItem) :
    WtinylfuCachePolicy :=
  { s with
    windowSize := s.windowSize - old.getSizeForCapacity + item.getSizeForCapacity
    windowCache := (s.windowCache.erase it).pushFront item
    keyLookupForWindow := s.keyLookupForWindow.insert old.key s.windowCache.next }

variable {old : WtinylfuItem}

theorem WindowWf.windowBytes_withMovedObject (h : WindowWf s) (item : WtinylfuItem)
    (hget : s.windowCache.get it = some old) :
    (withMovedObject s it old item).windowBytes + old.getSizeForCapacity =
      s.windowBytes + item.getSizeForCapacity := by
  have herase := bytes_erase WtinylfuItem.getSizeForCapacity hget
  have hpush : ((s.windowCache.erase it).pushFront item).bytes WtinylfuItem.getSizeForCapacity =
      (s.windowCache.erase it).bytes WtinylfuItem.getSizeForCapacity + item.getSizeForCapacity :=
    bytes_insertAt _ 0
  have htable := sumBy_insert (fun (k : Key) (_ : Nat) => entryBytes k)
    s.keyLookupForWindow old.key s.windowCache.next
  rw [h.window.lookup_of_get hget, elim_some] at htable
  have hafter : (withMovedObject s it old item).windowBytes =
      ((s.windowCache.erase it).pushFront item).bytes WtinylfuItem.getSizeForCapacity +
        sumBy (fun k _ => entryBytes k)
          (s.keyLookupForWindow.insert old.key s.windowCache.next) := rfl
  rw [hafter, windowBytes]
  omega

/-- An object of the window moves to its head, with another value that fits. -/
theorem WindowWf.moveObject (h : WindowWf s) (item : WtinylfuItem)
    (hget : s.windowCache.get it = some old) (hkey : item.key = old.key)
    (hobject : ObjectFits item.key item.value ∧
      objectSize item.key item.value ≤ s.windowCacheMaxBytes) :
    WindowWf (withMovedObject s it old item) ∧
      ∀ k, (withMovedObject s it old item).valueInWindow k =
        if k = old.key then some item.value else s.valueInWindow k := by
  have hunused : s.windowCache.get s.windowCache.next = none := get_next
  have hmove : (withMovedObject s it old item).windowCache.get = update
      (update s.windowCache.get it none) s.windowCache.next (some item) := by
    show ((s.windowCache.erase it).pushFront item).get = _
    rw [get_pushFront_eq, get_erase_eq]
    rfl
  refine ⟨⟨?_, ?_, fun it' item' hget' => ?_⟩, fun k => ?_⟩
  · rw [hmove]
    exact h.window.move hget hkey hunused
  · have hbytes := h.windowBytes_withMovedObject item hget
    have hle := le_bytes WtinylfuItem.getSizeForCapacity hget
    have hsize := h.windowSize
    have hwindow : s.windowBytes = s.windowCache.bytes WtinylfuItem.getSizeForCapacity + _ := rfl
    show s.windowSize - old.getSizeForCapacity + item.getSizeForCapacity = _
    omega
  · rw [hmove, update_apply] at hget'
    split at hget'
    · cases hget'
      exact hobject
    · rw [update_apply] at hget'
      split at hget'
      · cases hget'
      · exact h.objects it' item' hget'
  · rw [valueInWindow, hmove]
    show (found (s.keyLookupForWindow.insert old.key s.windowCache.next) _ k).map _ = _
    rw [h.window.found_move hget hunused]
    split
    · rfl
    · rfl

/-- An access of an object of the window. -/
theorem Inv.accessWindow {oldValue : Value} (h : Inv s)
    (hvalue : s.valueInWindow key = some oldValue) (newValue : Option Value)
    (hfits : ObjectFits key (newValue.getD oldValue))
    (hsmall : objectSize key (newValue.getD oldValue) ≤ s.windowCacheMaxBytes)
    (hroom : footprint s + objectSize key (newValue.getD oldValue) <
      uint64Limit + objectSize key oldValue) :
    ∃ s', s.accessWindow key newValue = some (s', some oldValue) ∧ Inv s' ∧
      s'.mainCache = s.mainCache := by
  obtain ⟨old, hfound, rfl⟩ := map_eq_some_iff.1 hvalue
  obtain ⟨it, hget, rfl⟩ := h.window.found_eq_some_iff.1 hfound
  obtain ⟨hwf, hafter⟩ := h.toWindowWf.moveObject ⟨old.key, newValue.getD old.value⟩ hget rfl
    ⟨hfits, hsmall⟩
  have hle := le_bytes WtinylfuItem.getSizeForCapacity hget
  have hwindowSize := h.windowSize
  have hbounded := h.bounded
  have hold : old.getSizeForCapacity = objectSize old.key old.value := rfl
  have hnew : (WtinylfuItem.mk old.key (newValue.getD old.value)).getSizeForCapacity =
    objectSize old.key (newValue.getD old.value) := rfl
  rw [windowBytes] at hwindowSize
  rw [footprint] at hroom hbounded
  refine ⟨withMovedObject s it old ⟨old.key, newValue.getD old.value⟩, ?_,
    ⟨hwf, h.main, fun k => ?_, h.counters, h.room, ?_⟩, rfl⟩
  · have hmod : (s.windowSize - old.getSizeForCapacity +
        (WtinylfuItem.mk old.key (newValue.getD old.value)).getSizeForCapacity) % uint64Limit =
          s.windowSize - old.getSizeForCapacity +
            (WtinylfuItem.mk old.key (newValue.getD old.value)).getSizeForCapacity :=
      Nat.mod_eq_of_lt (by omega)
    simp only [WtinylfuCachePolicy.accessWindow, h.window.lookup_of_get hget, hget, some_bind,
      pure_def, decreaseWindowSize, increaseWindowSize, clamped_sub, hmod]
    rfl
  · rw [hafter k]
    split
    · next hk =>
      rw [hk]
      refine .inr ((h.disjoint old.key).resolve_left ?_)
      rw [h.valueInWindow_of_get hget]
      exact some_ne_none _
    · exact h.disjoint k
  · have hlength : (withMovedObject s it old
        ⟨old.key, newValue.getD old.value⟩).windowCache.toList.length =
          s.windowCache.toList.length := by
      show ((s.windowCache.erase it).pushFront _).toList.length = _
      rw [toList_pushFront, List.length_cons, length_toList_erase hget]
    rw [footprint, hlength]
    show s.mainCache.size + (s.windowSize - old.getSizeForCapacity + _) + _ < uint64Limit
    omega

/-- A request of the main cache is counted. -/
theorem Inv.countRequest (h : Inv s) (hash : KeyHash) (key : Key) (value : Value) :
    ∃ s', s.countRequest hash key value = some s' ∧ Inv s' := by
  obtain ⟨cbf, hupdate, hnum⟩ := update_isSome h.counters hash key
  simp only [WtinylfuCachePolicy.countRequest, hupdate, some_bind]
  split
  · have hdecay : cbf.decay.counterNum = s.cbf.counterNum := hnum
    exact ⟨_, rfl, h.setCbf hdecay 0⟩
  · exact ⟨_, rfl, h.setCbf hnum _⟩

/-- An access of the main cache. -/
theorem Inv.accessMain (h : Inv s) (key : Key) (newValue : Option Value)
    (hupdate : ∀ value ∈ newValue, footprint s + objectSize key value < uint64Limit ∧
      ∀ r ∈ s.mainCache.get key, Slru.Meets r.1 (.update key value)) :
    ∃ s', s.accessMain key newValue = some (s', s.valueInMain key) ∧ Inv s' ∧
      (s.valueInMain key = none → s' = s) := by
  have hbounded := h.bounded
  rw [footprint] at hbounded
  obtain ⟨main, hget, hmain, haccessed⟩ := h.main.access key none
    fun item _ => ⟨fun _ => rfl, Nat.add_lt_add_right h.main.bounded _⟩
  have hget' : s.mainCache.get key = some (main, s.mainCache.valueOfKey key) := hget
  cases hvalue : s.mainCache.valueOfKey key with
  | none =>
    obtain rfl : main = s.mainCache := haccessed.absent hvalue
    have hnone : s.valueInMain key = none := hvalue
    refine ⟨s, ?_, h, fun _ => rfl⟩
    simp only [WtinylfuCachePolicy.accessMain, hget', hvalue, some_bind, pure_def, hnone]
  | some old =>
    have hsome : s.valueInMain key = some old := hvalue
    have hsize := haccessed.size old hvalue
    have hkeys : ∀ k, s.valueInMain k = none → main.valueOfKey k = none := by
      intro k hk
      rw [haccessed.valueOfKey k]
      split
      · next hkk =>
        rw [hkk, hsome] at hk
        cases hk
      · exact hk
    rw [getD_none] at hsize
    cases newValue with
    | none =>
      refine ⟨{ s with mainCache := main }, ?_, h.setMain hmain hkeys (by omega), fun hnone => ?_⟩
      · simp only [WtinylfuCachePolicy.accessMain, hget', hvalue, some_bind, pure_def, hsome]
      · rw [hsome] at hnone
        cases hnone
    | some value =>
      obtain ⟨hroom, hmeets⟩ := hupdate value rfl
      rw [footprint] at hroom
      obtain ⟨main', hupdated, hmain', haccessed'⟩ := hmain.access key (some value)
        (hmeets _ hget')
      have hvalue' : main.valueOfKey key = some old := by
        rw [haccessed.valueOfKey key, if_pos rfl, hvalue, map_some, getD_none]
      have hupdated' : main.update key value = some (main', true) := by
        rw [Slru.SlruCachePolicy.update, hupdated, hvalue']
        rfl
      have hsize' := haccessed'.size old hvalue'
      have hkeys' : ∀ k, s.valueInMain k = none → main'.valueOfKey k = none := by
        intro k hk
        rw [haccessed'.valueOfKey k]
        split
        · next hkk =>
          rw [hkk, hsome] at hk
          cases hk
        · exact hkeys k hk
      rw [getD_some] at hsize'
      refine ⟨{ s with mainCache := main' }, ?_, h.setMain hmain' hkeys' (by omega),
        fun hnone => ?_⟩
      · simp only [WtinylfuCachePolicy.accessMain, hget', hvalue, some_bind, pure_def, hsome,
          hupdated', require_bind]
      · rw [hsome] at hnone
        cases hnone

/-- An access does not fail and returns the value of the key. -/
theorem Inv.access (h : Inv s) (hash : KeyHash) (key : Key) (newValue : Option Value)
    (hupdate : ∀ value ∈ newValue, ObjectFits key value ∧
      objectSize key value ≤ s.windowCacheMaxBytes ∧
      footprint s + objectSize key value < uint64Limit ∧
      ∀ r ∈ s.mainCache.get key, Slru.Meets r.1 (.update key value)) :
    ∃ s', s.access hash key newValue = some (s', s.cached key) ∧ Inv s' := by
  cases hwindow : s.valueInWindow key with
  | some old =>
    obtain ⟨item, hfound, rfl⟩ := map_eq_some_iff.1 hwindow
    obtain ⟨it, hget, rfl⟩ := h.window.found_eq_some_iff.1 hfound
    obtain ⟨hfits, hsmall⟩ := h.objects it item hget
    have hbounded := h.bounded
    have hnone : s.valueInMain item.key = none :=
      (h.disjoint item.key).resolve_left (by
        rw [hwindow]
        exact some_ne_none _)
    obtain ⟨s', haccess, hinv, hmain⟩ : ∃ s', s.accessWindow item.key newValue =
        some (s', some item.value) ∧ Inv s' ∧ s'.mainCache = s.mainCache := by
      cases newValue with
      | none =>
        exact h.accessWindow hwindow none hfits hsmall (Nat.add_lt_add_right hbounded _)
      | some value =>
        obtain ⟨hfits', hsmall', hroom, -⟩ := hupdate value rfl
        exact h.accessWindow hwindow (some value) hfits' hsmall'
          (Nat.lt_of_lt_of_le hroom (Nat.le_add_right _ _))
    have hnone' : s'.valueInMain item.key = none := by
      rw [valueInMain, hmain]
      exact hnone
    -- the main cache does not hold the key, so it does not change
    obtain ⟨main, hmainGet, -, haccessed⟩ := hinv.main.access item.key none
      fun item _ => ⟨fun _ => rfl, Nat.add_lt_add_right hinv.main.bounded _⟩
    have hmainGet' : s'.mainCache.get item.key = some (main, s'.valueInMain item.key) := hmainGet
    obtain rfl : main = s'.mainCache := haccessed.absent hnone'
    refine ⟨s', ?_, hinv⟩
    simp only [WtinylfuCachePolicy.access, haccess, WtinylfuCachePolicy.accessMain, hmainGet',
      hnone', some_bind, pure_def, cached, hwindow, some_or]
  | none =>
    have hlookup : s.keyLookupForWindow.lookup key = none :=
      h.window.found_eq_none_iff.1 (map_eq_none_iff.1 hwindow)
    have haccess : s.accessWindow key newValue = some (s, none) := by
      rw [WtinylfuCachePolicy.accessWindow, hlookup]
    obtain ⟨s1, hmain, hinv, -⟩ := h.accessMain key newValue
      fun value hvalue => (hupdate value hvalue).2.2
    have hcached : s.cached key = s.valueInMain key := by
      rw [cached, hwindow, none_or]
    rw [hcached]
    cases hvalue : s.valueInMain key with
    | none =>
      refine ⟨s1, ?_, hinv⟩
      simp only [WtinylfuCachePolicy.access, haccess, hmain, hvalue, some_bind, pure_def]
    | some old =>
      obtain ⟨s2, hcount, hinv'⟩ := hinv.countRequest hash key (newValue.getD old)
      refine ⟨s2, ?_, hinv'⟩
      simp only [WtinylfuCachePolicy.access, haccess, hmain, hvalue, some_bind, pure_def,
        getD_none, hcount]

/-- The object of an admitted key enters the window. -/
theorem Inv.admitObject (h : Inv s) (hfits : ObjectFits key value)
    (hsmall : objectSize key value ≤ s.windowCacheMaxBytes)
    (hroom : footprint s + objectSize key value + entryBytes key + 4 < uint64Limit) :
    Inv (s.admitObject key value) := by
  rw [WtinylfuCachePolicy.admitObject]
  split
  · exact h
  next hnotWindow =>
  split
  · exact h
  next hnotMain =>
  have hlookup := not_isSome_iff_eq_none.1 hnotWindow
  have hunused : s.windowCache.get s.windowCache.next = none := get_next
  have hmain : s.valueInMain key = none := by
    have hlookupMain := not_isSome_iff_eq_none.1 hnotMain
    rw [valueInMain, Slru.SlruCachePolicy.resident, hlookupMain]
    rfl
  have hpush : (s.windowCache.pushFront ⟨key, value⟩).get =
      update s.windowCache.get s.windowCache.next (some ⟨key, value⟩) :=
    get_pushFront_eq
  have hbytes : (s.windowCache.pushFront ⟨key, value⟩).bytes WtinylfuItem.getSizeForCapacity =
      s.windowCache.bytes WtinylfuItem.getSizeForCapacity + objectSize key value :=
    bytes_insertAt _ 0
  have htable : insertNew s.keyLookupForWindow key s.windowCache.next =
      s.keyLookupForWindow.insert key s.windowCache.next := by
    rw [insertNew, hlookup]
    rfl
  have hsum := sumBy_insert (fun (k : Key) (_ : Nat) => entryBytes k)
    s.keyLookupForWindow key s.windowCache.next
  rw [hlookup, elim_none, Nat.add_zero] at hsum
  have hsize : ((s.windowSize + objectSize key value) % uint64Limit + entryBytes key) %
      uint64Limit = s.windowSize + objectSize key value + entryBytes key := by
    rw [footprint] at hroom
    have hfirst : (s.windowSize + objectSize key value) % uint64Limit =
      s.windowSize + objectSize key value := Nat.mod_eq_of_lt (by omega)
    rw [hfirst]
    exact Nat.mod_eq_of_lt (by omega)
  have hwindowSize := h.windowSize
  rw [windowBytes] at hwindowSize
  refine ⟨⟨?_, ?_, fun it item hget => ?_⟩, h.main, fun k => ?_, h.counters, h.room, ?_⟩
  · show Indexes _ (insertNew _ _ _) (s.windowCache.pushFront _).get
    rw [htable, hpush]
    exact h.window.insert (a := ⟨key, value⟩) hlookup hunused
  · show ((s.windowSize + objectSize key value) % uint64Limit + entryBytes key) % uint64Limit =
      (s.windowCache.pushFront ⟨key, value⟩).bytes WtinylfuItem.getSizeForCapacity +
        sumBy (fun k _ => entryBytes k) (insertNew _ _ _)
    rw [hsize, htable, hbytes, hsum]
    omega
  · change (s.windowCache.pushFront ⟨key, value⟩).get it = some item at hget
    rw [hpush, update_apply] at hget
    split at hget
    · cases hget
      exact ⟨hfits, hsmall⟩
    · exact h.objects it item hget
  · have hvalue : found (s.keyLookupForWindow.insert key s.windowCache.next)
        (s.windowCache.pushFront ⟨key, value⟩).get k =
          if k = key then some ⟨key, value⟩
          else found s.keyLookupForWindow s.windowCache.get k := by
      rw [hpush]
      exact h.window.found_insert (a := ⟨key, value⟩) hunused
    show (found (insertNew _ _ _) (s.windowCache.pushFront _).get k).map _ = none ∨ _
    rw [htable, hvalue]
    split
    · next hk =>
      rw [hk]
      exact .inr hmain
    · exact h.disjoint k
  · show s.mainCache.size + ((s.windowSize + objectSize key value) % uint64Limit +
      entryBytes key) % uint64Limit + 4 * (s.windowCache.pushFront _).toList.length < uint64Limit
    rw [hsize, toList_pushFront, List.length_cons]
    rw [footprint] at hroom
    omega

/-! ## Runs -/

/-- The number of counters of the filter. -/
theorem CBF.counterNum_of_create {entries : Nat} (h : create entries = some c) :
    0 < entries ∧ c.counterNum ≠ 0 ∧ c.counterNum ≤ 15 * entries + 20 := by
  simp only [create, bind_eq_some_iff, require_eq_some_iff, pure_eq_some_iff] at h
  obtain ⟨-, hcounters, -, hhashes, -, hmax, hc⟩ := h
  have hbpe : bpe ≤ 15 := by
    rw [bpe, logError]
    norm_num
  have hceil : ⌈bpe * entries⌉₊ ≤ 15 * entries := by
    apply Nat.ceil_le.2
    push_cast
    exact mul_le_mul_of_nonneg_right hbpe (Nat.cast_nonneg entries)
  have hmin := min_le_left ⌈bpe * entries⌉₊ (2 ^ 31 - 1)
  have hnum : c.counterNum = if min ⌈bpe * entries⌉₊ (2 ^ 31 - 1) < hashNum then
      hashNum * 2 else min ⌈bpe * entries⌉₊ (2 ^ 31 - 1) := by
    rw [← hc]
  refine ⟨by omega, ?_⟩
  rw [hnum]
  split
  · omega
  · omega

theorem inv_create {capacityBytes : Nat} (h : create capacityBytes = some s) : Inv s := by
  simp only [create, bind_eq_some_iff, require_eq_some_iff, pure_eq_some_iff] at h
  obtain ⟨cbf, hcbf, -, hlt, rfl⟩ := h
  obtain ⟨hentries, hcounters, hle⟩ := CBF.counterNum_of_create hcbf
  refine ⟨⟨Indexes.empty fun _ => rfl, rfl, fun it item hget => ?_⟩, Slru.inv_create _,
    fun k => .inl rfl, hcounters, ?_, ?_⟩
  · cases hget
  · -- the filter takes a small part of the main cache, which is much larger than the window
    rw [CBF.getSizeForCapacity] at hlt
    show capacityBytes / 100 + 4 ≤ capacityBytes * 99 / 100 - cbf.counterNum * 4
    omega
  · show 0 < uint64Limit
    decide

/-- An operation that meets the condition does not fail and keeps the invariant. -/
theorem Inv.step {a : Action} (h : Inv s) (hash : KeyHash) (hmeets : Meets s a) :
    ∃ s' out, step hash s a = some (s', out) ∧ Inv s' := by
  obtain ⟨hpromised, hmeets⟩ := hmeets
  cases a with
  | get key =>
    obtain ⟨s', haccess, hinv⟩ := h.access hash key none fun value hvalue => by
      cases hvalue
    exact ⟨s', .value (s.cached key),
      by rw [Wtinylfu.step, WtinylfuCachePolicy.get, haccess, map_some], hinv⟩
  | update key value =>
    obtain ⟨hallowed, hmain⟩ := hpromised
    obtain ⟨hfits, hroom⟩ := hmeets
    have hsmall := of_decide_eq_true (Bool.and_eq_true_iff.1 hallowed).1
    obtain ⟨s', haccess, hinv⟩ := h.access hash key (some value) fun v hv => by
      cases hv
      exact ⟨hfits, hsmall, hroom, hmain⟩
    exact ⟨s', .flag (s.cached key).isSome,
      by rw [Wtinylfu.step, WtinylfuCachePolicy.update, haccess]; rfl, hinv⟩
  | admitObject key value =>
    obtain ⟨hfits, hroom⟩ := hmeets
    have hsmall := of_decide_eq_true (Bool.and_eq_true_iff.1 hpromised).1
    exact ⟨_, _, rfl, h.admitObject hfits hsmall hroom⟩
  | evictNoGivenKey =>
    obtain ⟨s', victims, hevict, hinv, -⟩ := h.evictNoGivenKey hash hpromised
    exact ⟨s', .victims victims, by rw [Wtinylfu.step, hevict, map_some], hinv⟩

/-- In every run of operations that meet the condition the window matches its table and counter and
shares no key with the main cache, and an eviction of a cache that is not empty evicts what it
reports. -/
theorem evicts_of_runs (hash : KeyHash) (capacityBytes : Nat) (s₀ s : WtinylfuCachePolicy)
    (tr : List (Action × Output)) (hcreate : create capacityBytes = some s₀)
    (h : Runs (step hash) Meets s₀ tr s) : Correct hash s := by
  have hinv : Inv s := by
    refine h.invariant (inv_create hcreate) fun {t a t' out} hinv hmeets hstep => ?_
    obtain ⟨s', out', hstep', hinv'⟩ := hinv.step hash hmeets
    rw [hstep', Option.some.injEq, Prod.mk.injEq] at hstep
    exact hstep.1 ▸ hinv'
  refine ⟨hinv.represents, fun hne => ?_⟩
  obtain ⟨s', victims, hevict, hinv', hvictims, hdeparted⟩ := hinv.evictNoGivenKey hash hne
  exact ⟨s', victims, hevict, hinv'.represents, hvictims, fun key value => hdeparted.lookup_iff⟩

/-! ## Concrete runs -/

def firstKey : Key := ⟨[7]⟩
def secondKey : Key := ⟨[8]⟩

/-- A value as large as the type of its size allows. -/
def hugeValue : Value := .ofSize (2 ^ 32 - 1)

/-- All counters of the filter coincide. -/
def constantHash : KeyHash := fun _ _ => 0

/-- The size of key and value wraps around and passes the check, but there is no room in the empty
main cache, and no victim. -/
theorem evictNoGivenKey_hugeValue : ¬ ∀ hash capacityBytes s₀ s tr,
    create capacityBytes = some s₀ → Runs (step hash) Promised s₀ tr s → Correct hash s := by
  intro h
  have hexec : (create 20000).any (fun s₀ =>
      (exec (step constantHash) Promised s₀ [.admitObject firstKey hugeValue]).any fun s =>
        decide s.Nonempty && (s.evictNoGivenKey constantHash ∅).isNone) = true := by
    decide +kernel
  obtain ⟨s₀, hcreate, hrun⟩ := Option.any_eq_true _ _ |>.1 hexec
  obtain ⟨tr, s, hruns, -, hend⟩ := exists_runs_of_any hrun
  obtain ⟨hne, hnone⟩ := Bool.and_eq_true_iff.1 hend
  obtain ⟨s', victims, hevict, -⟩ :=
    (h constantHash 20000 s₀ s tr hcreate hruns).evicts (of_decide_eq_true hne)
  rw [hevict] at hnone
  cases hnone

/-- Both objects move to the main cache, and the one that was read is evicted from there. -/
theorem evicts_of_runs_moveAndEvict : ∃ s₀ s tr, create 20000 = some s₀ ∧
    Runs (step constantHash) Meets s₀ tr s ∧ s.valueInWindow secondKey = none ∧
      (s.valueInMain secondKey).isSome = true ∧ s.cached firstKey = none ∧
        Correct constantHash s := by
  have hexec : (create 20000).any (fun s₀ =>
      (exec (step constantHash) Meets s₀ [.admitObject firstKey (.ofSize 5), .get firstKey,
        .admitObject secondKey (.ofSize 5), .evictNoGivenKey]).any fun s =>
          decide (s.valueInWindow secondKey = none ∧ (s.valueInMain secondKey).isSome = true ∧
            s.cached firstKey = none)) = true := by
    decide +kernel
  obtain ⟨s₀, hcreate, hrun⟩ := Option.any_eq_true _ _ |>.1 hexec
  obtain ⟨tr, s, hruns, -, hend⟩ := exists_runs_of_any hrun
  obtain ⟨hwindow, hmain, hgone⟩ := of_decide_eq_true hend
  exact ⟨s₀, s, tr, hcreate, hruns, hwindow, hmain, hgone,
    evicts_of_runs constantHash 20000 s₀ s tr hcreate hruns⟩

end Covered.Cache.Wtinylfu
