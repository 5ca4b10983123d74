import Covered.Cache.BestguessLocalCache

/-!
# The BestGuess cache approximates global LRU

`Inv` is the invariant: the lookup map finds the objects of the list, the size is the sum of the
bytes, and both the stamps and the last uses decrease from the head to the tail of the list. A stamp
is the clock of the cache, which only grows, so the two orders are the same.

`approximates_of_runs` is the theorem: after every run under `Meets` the stamps decrease strictly
and are below the clock, the lookup map is a bijection onto the list, the size is exact, the victim
is the least recently used key, an eviction reports the value that was stored, and a placement is at
an edge with the oldest victim. `eviction_reports_nothing` is a run in which an eviction does not.
-/

set_option autoImplicit false

namespace Covered.Cache.Bestguess

open Common Lib Lib.Checked Lib.Execution BestGuessLocalCache LinkedList Function List

variable {s t : BestGuessLocalCache} {key : Key} {it : Nat} {item : BestGuessItem} {value : Value}

/-! ## The invariant -/

/-- The first item is newer than the second one, by their stamps and by the last uses. -/
def Newer (lastUse : Key → Nat) (a b : BestGuessItem) : Prop :=
  b.vtime < a.vtime ∧ lastUse b.key < lastUse a.key

structure Inv (s : BestGuessLocalCache) (clock : Nat) (lastUse : Key → Nat) : Prop where
  indexed : IndexedList BestGuessItem.key BestGuessItem.getSizeForCapacity lookupBytes
    s.bestguessCache s.lookupMap s.size
  newer : s.bestguessCache.toList.Pairwise (Newer lastUse)
  below : ∀ item ∈ s.bestguessCache.toList, item.vtime < s.curVtime ∧ lastUse item.key < clock
  fits : ∀ item ∈ s.bestguessCache.toList,
    item.key.getKeyLength + item.value.valuesize < 2 ^ 32
  size : s.size < uint64Limit
  neighbors : s.peredgeVictimVtime.lookup s.edgeIdx = none

theorem inv_create (edgeIdx capacityBytes : Nat) :
    Inv (create edgeIdx capacityBytes) 0 fun _ => 0 where
  indexed := IndexedList.empty
  newer := List.Pairwise.nil
  below := fun item hitem => absurd hitem not_mem_nil
  fits := fun item hitem => absurd hitem not_mem_nil
  size := show 0 < uint64Limit by decide
  neighbors := rfl

section

variable {clock : Nat} {lastUse : Key → Nat}

/-- Time goes on and nothing is used. -/
theorem Inv.later (h : Inv s clock lastUse) {curVtime : Nat} (hle : s.curVtime ≤ curVtime) :
    Inv { s with curVtime := curVtime } (clock + 1) lastUse where
  indexed := h.indexed
  newer := h.newer
  below := fun item hitem =>
    ⟨(h.below item hitem).1.trans_le hle, Nat.lt_succ_of_lt (h.below item hitem).2⟩
  fits := h.fits
  size := h.size
  neighbors := h.neighbors

theorem Inv.idle (h : Inv s clock lastUse) : Inv s (clock + 1) lastUse := h.later le_rfl

/-- An object is stamped and put in front of others that have another key. -/
theorem newer_cons {items : List BestGuessItem} {vtime : Nat} (value : Value)
    (hnewer : items.Pairwise (Newer lastUse)) (hbelow : ∀ item ∈ items,
      item.vtime < vtime ∧ lastUse item.key < clock) (hkey : ∀ item ∈ items, item.key ≠ key) :
    (⟨key, value, vtime⟩ :: items : List BestGuessItem).Pairwise
        (Newer (update lastUse key clock)) ∧
      ∀ item ∈ (⟨key, value, vtime⟩ :: items : List BestGuessItem),
        item.vtime < vtime + 1 ∧ update lastUse key clock item.key < clock + 1 := by
  have hother : ∀ item ∈ items, update lastUse key clock item.key = lastUse item.key :=
    fun item hitem => update_of_ne (hkey item hitem) _ _
  constructor
  · rw [pairwise_cons]
    refine ⟨fun item hitem => ⟨(hbelow item hitem).1, ?_⟩, ?_⟩
    · rw [hother item hitem, update_self]
      exact (hbelow item hitem).2
    · refine hnewer.imp_of_mem fun ha hb hab => ⟨hab.1, ?_⟩
      rw [hother _ ha, hother _ hb]
      exact hab.2
  · intro item hitem
    rcases mem_cons.1 hitem with rfl | hitem
    · refine ⟨Nat.lt_succ_self _, ?_⟩
      rw [update_self]
      exact Nat.lt_succ_self _
    · rw [hother item hitem]
      exact ⟨Nat.lt_succ_of_lt (hbelow item hitem).1, Nat.lt_succ_of_lt (hbelow item hitem).2⟩

theorem nextVtime_eq (h : s.curVtime + 1 < uint64Limit) : s.nextVtime = s.curVtime + 1 :=
  Nat.mod_eq_of_lt h

/-- The object of a key is touched, with a value of its own size. -/
theorem Inv.touch (h : Inv s clock lastUse) (hget : s.bestguessCache.get it = some item)
    (hclock : s.curVtime + 1 < uint64Limit) (hvalue : item.key.getKeyLength + value.valuesize <
      2 ^ 32) {size : Nat} (hlimit : size < uint64Limit)
    (hsize : size = s.size - item.getSizeForCapacity +
      (BestGuessItem.mk item.key value s.curVtime).getSizeForCapacity) :
    Inv { s.touch it item.key value with size := size } (clock + 1)
      (update lastUse item.key clock) := by
  have hsub := IndexedList.sublist_erase s.bestguessCache it
  have htoList : ((s.bestguessCache.erase it).pushFront
      (⟨item.key, value, s.curVtime⟩ : BestGuessItem)).toList =
      ⟨item.key, value, s.curVtime⟩ :: (s.bestguessCache.erase it).toList :=
    toList_pushFront
  obtain ⟨hnewer, hbelow⟩ := newer_cons value (h.newer.sublist hsub)
    (fun item hitem => h.below item (hsub.subset hitem)) (h.indexed.key_ne_of_mem_erase hget)
  constructor
  · rw [hsize]
    exact h.indexed.moveFront hget (b := ⟨item.key, value, s.curVtime⟩) rfl
  · dsimp only [BestGuessLocalCache.touch]
    rw [htoList]
    exact hnewer
  · dsimp only [BestGuessLocalCache.touch]
    rw [htoList, nextVtime_eq hclock]
    exact hbelow
  · dsimp only [BestGuessLocalCache.touch]
    rw [htoList]
    intro item' hitem'
    rcases mem_cons.1 hitem' with rfl | hitem'
    · exact hvalue
    · exact h.fits item' (hsub.subset hitem')
  · exact hlimit
  · exact h.neighbors

theorem getSizeForCapacity_eq (h : item.key.getKeyLength + item.value.valuesize < 2 ^ 32) :
    item.getSizeForCapacity = item.key.getKeyLength + item.value.valuesize + 8 := by
  rw [BestGuessItem.getSizeForCapacity, objectSize, Nat.mod_eq_of_lt h]

/-! ## The operations -/

/-- The last uses after an operation at the given time. -/
def lastUseOf (s : BestGuessLocalCache) (clock : Nat) (lastUse : Key → Nat) (a : Action) :
    Key → Nat :=
  (s.used a).elim lastUse fun key => Function.update lastUse key clock

theorem Inv.getLocalCache {out : Option Value} (h : Inv s clock lastUse)
    (hclock : s.curVtime + 1 < uint64Limit) (hget : s.getLocalCache key = some (t, out)) :
    Inv t (clock + 1) (lastUseOf s clock lastUse (.getLocalCache key)) := by
  rw [BestGuessLocalCache.getLocalCache] at hget
  split at hget
  · next hlookup =>
    cases hget
    have hused : s.used (.getLocalCache key) = none := by
      simp [used, isLocalCached, hlookup]
    rw [lastUseOf, hused, nextVtime_eq hclock]
    exact h.later (Nat.le_succ _)
  · next it hlookup =>
    simp only [bind_eq_some_iff, require_eq_some_iff, pure_eq_some_iff, Prod.mk.injEq] at hget
    obtain ⟨item, hitem, -, -, rfl, -⟩ := hget
    obtain ⟨item', hitem', rfl⟩ := h.indexed.get_of_lookup hlookup
    rw [hitem, Option.some.injEq] at hitem'
    subst hitem'
    have hused : s.used (.getLocalCache item.key) = some item.key := by
      simp [used, isLocalCached, hlookup]
    have hle := h.indexed.le_size hitem
    have hsame : (BestGuessItem.mk item.key item.value s.curVtime).getSizeForCapacity =
        item.getSizeForCapacity := rfl
    rw [lastUseOf, hused]
    refine h.touch hitem hclock (h.fits item (mem_toList_iff.2 ⟨it, hitem⟩)) h.size ?_
    rw [hsame]
    omega

theorem Inv.updateLocalCache {out : Bool × Bool} (h : Inv s clock lastUse)
    (hclock : s.curVtime + 1 < uint64Limit)
    (hvalue : key.getKeyLength + value.valuesize < 2 ^ 32)
    (hupdate : s.updateLocalCache key value = some (t, out)) :
    Inv t (clock + 1) (lastUseOf s clock lastUse (.updateLocalCache key value)) := by
  rw [BestGuessLocalCache.updateLocalCache] at hupdate
  split at hupdate
  · next hlookup =>
    cases hupdate
    have hused : s.used (.updateLocalCache key value) = none := by
      simp [used, isLocalCached, hlookup]
    rw [lastUseOf, hused, nextVtime_eq hclock]
    exact h.later (Nat.le_succ _)
  · next it hlookup =>
    split at hupdate
    · next hinvalid =>
      cases hupdate
      have hused : s.used (.updateLocalCache key value) = none := by
        simp [used, hinvalid]
      rw [lastUseOf, hused]
      exact h.idle
    · next hvalid =>
      simp only [bind_eq_some_iff, pure_eq_some_iff, Prod.mk.injEq] at hupdate
      obtain ⟨item, hitem, size, hsize, rfl, -⟩ := hupdate
      obtain ⟨item', hitem', rfl⟩ := h.indexed.get_of_lookup hlookup
      rw [hitem, Option.some.injEq] at hitem'
      subst hitem'
      have hused : s.used (.updateLocalCache item.key value) = some item.key := by
        simp [used, isLocalCached, hlookup, hvalid]
      have hle := h.indexed.le_size hitem
      have hold := getSizeForCapacity_eq (h.fits item (mem_toList_iff.2 ⟨it, hitem⟩))
      have hnew := @getSizeForCapacity_eq ⟨item.key, value, s.curVtime⟩ hvalue
      have hlimit := h.size
      dsimp only at hnew
      have hfinal : size < uint64Limit ∧ size = s.size - item.getSizeForCapacity +
          (BestGuessItem.mk item.key value s.curVtime).getSizeForCapacity := by
        rw [hnew]
        split at hsize
        · have hsum := uint64Add_eq_some hsize
          have hbound := uint64Add_lt hsize
          omega
        · split at hsize
          · rw [uint64Minus_eq hlimit (by omega), Option.some.injEq] at hsize
            omega
          · rw [Option.some.injEq] at hsize
            omega
      rw [lastUseOf, hused]
      exact h.touch hitem hclock hvalue hfinal.1 hfinal.2

theorem Inv.admitLocalCache (h : Inv s clock lastUse) (hclock : s.curVtime + 1 < uint64Limit)
    (hvalue : key.getKeyLength + value.valuesize < 2 ^ 32)
    (hadded : s.admitLocalCache key value = some t) :
    Inv t (clock + 1) (lastUseOf s clock lastUse (.admitLocalCache key value)) := by
  rw [BestGuessLocalCache.admitLocalCache] at hadded
  simp only [Option.bind_eq_bind, require_bind_eq_some_iff] at hadded
  obtain ⟨-, hadded⟩ := hadded
  split at hadded
  · next hlookup =>
    cases hadded
    have hused : s.used (.admitLocalCache key value) = none := by
      simp [used, isLocalCached, hlookup]
    rw [lastUseOf, hused]
    exact h.idle
  · next hlookup =>
    simp only [Option.bind_eq_some_iff, pure_eq_some_iff] at hadded
    obtain ⟨size, hsize, size', hsize', rfl⟩ := hadded
    have hused : s.used (.admitLocalCache key value) = some key := by
      simp [used, isLocalCached, hlookup]
    have hkey : ∀ item ∈ s.bestguessCache.toList, item.key ≠ key := by
      intro item hitem heq
      have hcached := h.indexed.lookup_isSome_iff.2 ⟨item, hitem, heq⟩
      rw [hlookup] at hcached
      cases hcached
    obtain ⟨hnewer, hbelow⟩ := newer_cons value h.newer h.below hkey
    have hpush : (s.bestguessCache.pushFront (⟨key, value, s.curVtime⟩ : BestGuessItem)).toList =
        ⟨key, value, s.curVtime⟩ :: s.bestguessCache.toList := toList_pushFront
    rw [lastUseOf, hused]
    constructor
    · dsimp only
      rw [uint64Add_eq_some hsize', uint64Add_eq_some hsize]
      exact h.indexed.pushFront (a := ⟨key, value, s.curVtime⟩) hlookup
    · dsimp only
      rw [hpush]
      exact hnewer
    · dsimp only
      rw [hpush, nextVtime_eq hclock]
      exact hbelow
    · dsimp only
      rw [hpush]
      intro item hitem
      rcases mem_cons.1 hitem with rfl | hitem
      · exact hvalue
      · exact h.fits item hitem
    · exact uint64Add_lt hsize'
    · exact h.neighbors

/-- An eviction erases the object and leaves the variable of the caller as it is. -/
theorem Inv.evictLocalCacheWithGivenKey {out : Bool × Value} (h : Inv s clock lastUse)
    (hevict : s.evictLocalCacheWithGivenKey key value = some (t, out)) :
    Inv t (clock + 1) lastUse ∧ out = ((s.resident key).isSome, value) := by
  rw [BestGuessLocalCache.evictLocalCacheWithGivenKey] at hevict
  split at hevict
  · next hlookup =>
    cases hevict
    refine ⟨h.idle, ?_⟩
    rw [resident, h.indexed.indexes.found_eq_none_iff.2 hlookup]
    rfl
  · next it hlookup =>
    simp only [bind_eq_some_iff, require_eq_some_iff, pure_eq_some_iff, Prod.mk.injEq] at hevict
    obtain ⟨item, hitem, -, -, rfl, rfl⟩ := hevict
    obtain ⟨item', hitem', rfl⟩ := h.indexed.get_of_lookup hlookup
    rw [hitem, Option.some.injEq] at hitem'
    subst hitem'
    have hle := h.indexed.le_size hitem
    have hlimit := h.size
    have hsub := IndexedList.sublist_erase s.bestguessCache it
    have hsize : uint64Minus (uint64Minus s.size item.getSizeForCapacity) (lookupBytes item.key) =
        s.size - (item.getSizeForCapacity + lookupBytes item.key) := by
      rw [uint64Minus_eq (b := item.getSizeForCapacity) hlimit (by omega),
        uint64Minus_eq (by omega) (by omega)]
      omega
    refine ⟨⟨?_, h.newer.sublist hsub, fun item' hitem' => ?_,
      fun item' hitem' => h.fits item' (hsub.subset hitem'), ?_, h.neighbors⟩, ?_⟩
    · dsimp only
      rw [hsize]
      exact h.indexed.erase hitem
    · have hold := h.below item' (hsub.subset hitem')
      exact ⟨hold.1, Nat.lt_succ_of_lt hold.2⟩
    · dsimp only
      rw [hsize]
      omega
    · rw [resident, h.indexed.indexes.found_of_get hitem]
      rfl

theorem Inv.updateNeighborVictimVtime {neighborEdgeIdx neighborVictimVtime : Nat}
    (h : Inv s clock lastUse)
    (hupdate : s.updateNeighborVictimVtime neighborEdgeIdx neighborVictimVtime = some t) :
    Inv t (clock + 1) lastUse := by
  simp only [BestGuessLocalCache.updateNeighborVictimVtime, require_bind_iff,
    pure_eq_some_iff] at hupdate
  obtain ⟨hne, rfl⟩ := hupdate
  have hidle := h.idle
  refine ⟨hidle.indexed, hidle.newer, hidle.below, hidle.fits, hidle.size, ?_⟩
  dsimp only
  rw [UnorderedMap.lookup_insert_eq, if_neg (Ne.symm hne)]
  exact h.neighbors

/-! ## The placement -/

variable {order : List ((_ : Nat) × Nat)}

/-- The search ends with the edge it starts with, unless a neighbor is older; then with one of the
oldest. -/
theorem foldlM_olderVictim {edgeIdx : Nat} {start best : Nat × Nat}
    (h : order.foldlM (olderVictim edgeIdx) start = some best) :
    best.2 ≤ start.2 ∧ (∀ neighbor ∈ order, best.2 ≤ neighbor.2) ∧
      (best = start ∨ best.2 < start.2 ∧ (⟨best.1, best.2⟩ : (_ : Nat) × Nat) ∈ order) := by
  induction order generalizing start with
  | nil =>
    cases h
    exact ⟨le_rfl, fun _ hn => absurd hn not_mem_nil, .inl rfl⟩
  | cons neighbor rest ih =>
    rw [foldlM_cons, Option.bind_eq_bind] at h
    obtain ⟨next, hnext, hrest⟩ := bind_eq_some_iff.1 h
    simp only [olderVictim, require_bind_iff, pure_eq_some_iff] at hnext
    obtain ⟨-, hnext⟩ := hnext
    obtain ⟨hle, hall, hbest⟩ := ih hrest
    by_cases holder : neighbor.2 < start.2
    · rw [if_pos holder] at hnext
      subst hnext
      dsimp only at hle hbest
      refine ⟨hle.trans holder.le, ?_, .inr ⟨hle.trans_lt holder, ?_⟩⟩
      · exact forall_mem_cons.2 ⟨hle, hall⟩
      · rcases hbest with rfl | ⟨-, hmem⟩
        · exact mem_cons_self
        · exact mem_cons_of_mem _ hmem
    · rw [if_neg holder] at hnext
      subst hnext
      refine ⟨hle, ?_, ?_⟩
      · exact forall_mem_cons.2 ⟨hle.trans (not_lt.1 holder), hall⟩
      · rcases hbest with heq | ⟨hlt, hmem⟩
        · exact .inl heq
        · exact .inr ⟨hlt, mem_cons_of_mem _ hmem⟩

/-- A placement: at the edge itself if no neighbor has an older victim, and nothing changes; else at
a neighbor with the oldest victim, whose stamp is forgotten. -/
def IsPlacement (s t : BestGuessLocalCache) (edgeIdx : Nat) : Prop :=
  (edgeIdx = s.edgeIdx ∧ t = s ∧ ∀ neighbor vtime,
      s.peredgeVictimVtime.lookup neighbor = some vtime → s.getLocalVictimVtime ≤ vtime) ∨
  ∃ oldest, edgeIdx ≠ s.edgeIdx ∧ s.peredgeVictimVtime.lookup edgeIdx = some oldest ∧
    oldest < s.getLocalVictimVtime ∧
    (∀ neighbor vtime, s.peredgeVictimVtime.lookup neighbor = some vtime → oldest ≤ vtime) ∧
    t = { s with peredgeVictimVtime := s.peredgeVictimVtime.erase edgeIdx }

theorem Inv.getPlacementEdgeIdx {edgeIdx : Nat}
    (h : Inv s clock lastUse) (hplacement : s.getPlacementEdgeIdx order = some (t, edgeIdx)) :
    Inv t (clock + 1) lastUse ∧ IsPlacement s t edgeIdx := by
  simp only [BestGuessLocalCache.getPlacementEdgeIdx, bind_eq_some_iff, require_eq_some_iff,
    pure_eq_some_iff, Prod.mk.injEq] at hplacement
  obtain ⟨-, hperm, best, hfold, ht, rfl⟩ := hplacement
  obtain ⟨hle, hall, hbest⟩ := foldlM_olderVictim hfold
  have hmem : ∀ neighbor vtime, s.peredgeVictimVtime.lookup neighbor = some vtime →
      best.2 ≤ vtime := by
    intro neighbor vtime hlookup
    exact hall ⟨neighbor, vtime⟩
      (hperm.mem_iff.2 ((UnorderedMap.mem_entries_iff _ _ _).2 hlookup))
  rcases hbest with rfl | ⟨hlt, hin⟩
  · rw [if_neg (not_not.2 rfl)] at ht
    subst ht
    exact ⟨h.idle, .inl ⟨rfl, rfl, hmem⟩⟩
  · have hlookup := (UnorderedMap.mem_entries_iff _ _ _).1 (hperm.mem_iff.1 hin)
    have hne : best.1 ≠ s.edgeIdx := by
      intro heq
      rw [heq, h.neighbors] at hlookup
      cases hlookup
    rw [if_pos hne] at ht
    subst ht
    have hidle := h.idle
    refine ⟨⟨hidle.indexed, hidle.newer, hidle.below, hidle.fits, hidle.size, ?_⟩,
      .inr ⟨best.2, hne, hlookup, hlt, hmem, rfl⟩⟩
    dsimp only
    rw [UnorderedMap.lookup_erase_eq, if_neg (Ne.symm hne)]
    exact h.neighbors

end

/-! ## Every run -/

/-- Every operation under the condition keeps the invariant. -/
theorem Inv.step {s t : Observed} {a : Action} {out : Output} (h : Inv s.cache s.clock s.lastUse)
    (hmeets : Meets s.cache a) (hstep : s.step a = some (t, out)) :
    Inv t.cache t.clock t.lastUse := by
  obtain ⟨⟨cache, out'⟩, hcache, heq⟩ := Option.map_eq_some_iff.1 hstep
  cases heq
  change Inv cache (s.clock + 1) (lastUseOf s.cache s.clock s.lastUse a)
  cases a with
  | getLocalCache key =>
    obtain ⟨r, hget, heq⟩ := Option.map_eq_some_iff.1 hcache
    cases heq
    exact h.getLocalCache hmeets hget
  | updateLocalCache key value =>
    obtain ⟨r, hupdate, heq⟩ := Option.map_eq_some_iff.1 hcache
    cases heq
    exact h.updateLocalCache hmeets.1 hmeets.2 hupdate
  | admitLocalCache key value =>
    obtain ⟨r, hadded, heq⟩ := Option.map_eq_some_iff.1 hcache
    cases heq
    exact h.admitLocalCache hmeets.1 hmeets.2 hadded
  | getLocalCacheVictimKeys =>
    cases hcache
    exact h.idle
  | evictLocalCacheWithGivenKey key value =>
    obtain ⟨r, hevict, heq⟩ := Option.map_eq_some_iff.1 hcache
    cases heq
    exact (h.evictLocalCacheWithGivenKey hevict).1
  | updateNeighborVictimVtime neighborEdgeIdx neighborVictimVtime =>
    obtain ⟨r, hupdate, heq⟩ := Option.map_eq_some_iff.1 hcache
    cases heq
    exact h.updateNeighborVictimVtime hupdate
  | getPlacementEdgeIdx order =>
    obtain ⟨r, hplacement, heq⟩ := Option.map_eq_some_iff.1 hcache
    cases heq
    exact (h.getPlacementEdgeIdx hplacement).1

theorem inv_of_runs {edgeIdx capacityBytes : Nat} {tr : List (Action × Output)} {s : Observed}
    (hrun : Runs Observed.step (fun s a => Meets s.cache a)
      ⟨create edgeIdx capacityBytes, 0, fun _ => 0⟩ tr s) : Inv s.cache s.clock s.lastUse := by
  refine hrun.invariant (P := fun s => Inv s.cache s.clock s.lastUse) ?_ ?_
  · exact inv_create edgeIdx capacityBytes
  · intro t a t' b hinv hmeets hstep
    exact hinv.step hmeets hstep

/-- The victim is the cached key whose last use is the oldest. -/
def IsVictim (s : Observed) : Option Key → Prop
  | none => ∀ key, s.cache.isLocalCached key = false
  | some victim => s.cache.isLocalCached victim = true ∧
      ∀ key, s.cache.isLocalCached key = true → key ≠ victim → s.lastUse victim < s.lastUse key

theorem Inv.isVictim {s : Observed} (h : Inv s.cache s.clock s.lastUse) :
    IsVictim s s.cache.getLocalCacheVictimKeys := by
  rw [getLocalCacheVictimKeys]
  cases hback : s.cache.bestguessCache.back with
  | none =>
    intro key
    rw [back_eq_none_iff] at hback
    rw [isLocalCached, ← Bool.not_eq_true, h.indexed.lookup_isSome_iff, hback]
    rintro ⟨item, hitem, -⟩
    exact not_mem_nil hitem
  | some tail =>
    obtain ⟨it, item⟩ := tail
    have hlast := toList_getLast_of_back hback
    obtain ⟨front, hlist⟩ := getLast?_eq_some_iff.1 hlast
    have hnewer := h.newer
    rw [hlist, pairwise_append] at hnewer
    refine ⟨?_, fun key hcached hne => ?_⟩
    · rw [isLocalCached, h.indexed.lookup_isSome_iff]
      exact ⟨item, hlist ▸ mem_append_right _ mem_cons_self, rfl⟩
    · -- the item of another key stands before the tail
      obtain ⟨other, hother, rfl⟩ := h.indexed.lookup_isSome_iff.1 hcached
      rw [hlist, mem_append, mem_singleton] at hother
      rcases hother with hfront | rfl
      · exact (hnewer.2.2 other hfront item mem_cons_self).2
      · exact absurd rfl hne

/-- What the cache promises in a state: the order of the stamps, the lookup map, the size, the
victim, the value that an eviction reports, and the placement. -/
structure Approximates (s : Observed) : Prop where
  decreasing : s.cache.bestguessCache.toList.Pairwise fun a b => b.vtime < a.vtime
  below : ∀ item ∈ s.cache.bestguessCache.toList, item.vtime < s.cache.curVtime
  bijection : Indexes BestGuessItem.key s.cache.lookupMap s.cache.bestguessCache.get
  size : s.cache.getSizeForCapacity =
    (s.cache.bestguessCache.toList.map BestGuessItem.getSizeForCapacity).sum +
      s.cache.lookupMap.sumBy fun key _ => lookupBytes key
  victim : IsVictim s s.cache.getLocalCacheVictimKeys
  evicted : ∀ {key value t isEvict reported},
    Meets s.cache (.evictLocalCacheWithGivenKey key value) →
    s.cache.evictLocalCacheWithGivenKey key value = some (t, isEvict, reported) →
    ∀ item ∈ s.cache.resident key, isEvict = true ∧ reported = item.value
  placement : ∀ {order t edgeIdx}, s.cache.getPlacementEdgeIdx order = some (t, edgeIdx) →
    IsPlacement s.cache t edgeIdx

/-- The cache approximates LRU in every state of every run in which no number wraps around and the
variable of the caller of an eviction already holds the value. -/
theorem approximates_of_runs {edgeIdx capacityBytes : Nat} {tr : List (Action × Output)}
    {s : Observed} (hrun : Runs Observed.step (fun s a => Meets s.cache a)
      ⟨create edgeIdx capacityBytes, 0, fun _ => 0⟩ tr s) : Approximates s := by
  have hinv := inv_of_runs hrun
  constructor
  · exact hinv.newer.imp fun hab => hab.1
  · intro item hitem
    exact (hinv.below item hitem).1
  · exact hinv.indexed.indexes
  · exact hinv.indexed.size
  · exact hinv.isVictim
  · intro key value t isEvict reported hmeets hevict item hitem
    have hout := (hinv.evictLocalCacheWithGivenKey hevict).2
    rw [Option.mem_def.1 hitem, Option.isSome_some, Prod.mk.injEq] at hout
    exact ⟨hout.1, hout.2.trans (hmeets item hitem)⟩
  · intro order t edgeIdx hplacement
    exact (hinv.getPlacementEdgeIdx hplacement).2

/-! ## Concrete runs -/

/-- Two keys are admitted, the first one is read and the second one updated. Of two neighbors the
one with the older victim gets a placement, and the first key is evicted. -/
theorem approximates_of_runs_evicted :
    ∃ tr s, Runs Observed.step (fun s a => Meets s.cache a) ⟨create 0 100, 0, fun _ => 0⟩ tr s ∧
      Approximates s ∧ s.cache.getLocalCacheVictimKeys = some ⟨[2]⟩ ∧
      s.cache.isLocalCached ⟨[1]⟩ = false ∧ s.cache.peredgeVictimVtime.lookup 1 = none := by
  have hexec : (exec Observed.step (fun s a => Meets s.cache a) ⟨create 0 100, 0, fun _ => 0⟩
      [.admitLocalCache ⟨[1]⟩ (.ofSize 10), .admitLocalCache ⟨[2]⟩ (.ofSize 20),
        .getLocalCache ⟨[1]⟩, .updateLocalCache ⟨[2]⟩ (.ofSize 15), .updateNeighborVictimVtime 1 1,
        .updateNeighborVictimVtime 2 9, .getPlacementEdgeIdx [⟨1, 1⟩, ⟨2, 9⟩],
        .evictLocalCacheWithGivenKey ⟨[1]⟩ (.ofSize 10)]).any
      (fun s => decide (s.cache.getLocalCacheVictimKeys = some ⟨[2]⟩ ∧
        s.cache.isLocalCached ⟨[1]⟩ = false ∧ s.cache.peredgeVictimVtime.lookup 1 = none)) =
      true := by
    decide +kernel
  obtain ⟨tr, s, hrun, -, hs⟩ := exists_runs_of_any hexec
  exact ⟨tr, s, hrun, approximates_of_runs hrun, of_decide_eq_true hs⟩

/-- A key is admitted with a value of ten bytes and evicted. The variable of the caller is a new
value, and that is what the eviction reports. -/
theorem eviction_reports_nothing :
    ∃ tr s t item, Runs Observed.step anyAction ⟨create 0 100, 0, fun _ => 0⟩ tr s ∧
      s.cache.resident ⟨[1]⟩ = some item ∧ item.value = Value.ofSize 10 ∧
      s.cache.evictLocalCacheWithGivenKey ⟨[1]⟩ deletedValue = some (t, true, deletedValue) := by
  have hexec : (exec Observed.step anyAction ⟨create 0 100, 0, fun _ => 0⟩
      [.admitLocalCache ⟨[1]⟩ (.ofSize 10)]).any
      (fun s => (s.cache.resident ⟨[1]⟩).any (fun item => decide (item.value = Value.ofSize 10)) &&
        (s.cache.evictLocalCacheWithGivenKey ⟨[1]⟩ deletedValue).any fun r =>
          decide (r.2 = (true, deletedValue))) = true := by
    decide +kernel
  obtain ⟨tr, s, hrun, -, hs⟩ := exists_runs_of_any hexec
  rw [Bool.and_eq_true, Option.any_eq_true, Option.any_eq_true] at hs
  obtain ⟨⟨item, hitem, hvalue⟩, r, hevict, hr⟩ := hs
  rw [decide_eq_true_eq] at hvalue hr
  exact ⟨tr, s, r.1, item, hrun, hitem, hvalue, hr ▸ hevict⟩

end Covered.Cache.Bestguess
