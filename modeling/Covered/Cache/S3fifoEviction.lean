import Covered.Cache.S3fifoRepresentation

/-!
# Eviction from S3-FIFO

A call of `evictNoGivenKey` need not evict an object: it may only move objects from the small to the
main queue. But it makes progress in the `weight`, which counts an object of the small queue twice,
whenever the queue that it looks at has an object. Only the choice of an empty main queue would
stall the loop, and then the ghost queue is empty too and the small queue below its share, so that
the size does not exceed the capacity.

The lemmas about the weight speak of calls that do not fail, so they need nothing of the
representation.
-/

set_option autoImplicit false

namespace Covered.Cache.S3fifo

open Common Lib Lib.Checked Lib.Execution S3fifoCachePolicy LinkedList

variable {freedLength : FreedLength} {s t u : S3fifoCachePolicy} {key : Key} {value : Value}
  {victims victims' : Victims}

/-! ## Lengths of the queues -/

namespace S3fifoCachePolicy

def smallLength (s : S3fifoCachePolicy) : Nat := s.small.queue.toList.length

def mainLength (s : S3fifoCachePolicy) : Nat := s.main.queue.toList.length

/-- Cached objects; those of the small queue count twice. -/
def weight (s : S3fifoCachePolicy) : Nat := 2 * s.smallLength + s.mainLength

end S3fifoCachePolicy

/-- The queues of objects are the same. -/
structure SameQueues (s t : S3fifoCachePolicy) : Prop where
  small : t.small.queue = s.small.queue
  main : t.main.queue = s.main.queue
  capacityBytes : t.capacityBytes = s.capacityBytes

theorem SameQueues.refl (s : S3fifoCachePolicy) : SameQueues s s := ⟨rfl, rfl, rfl⟩

theorem SameQueues.trans (h : SameQueues s t) (h' : SameQueues t u) : SameQueues s u :=
  ⟨h'.small.trans h.small, h'.main.trans h.main, h'.capacityBytes.trans h.capacityBytes⟩

theorem SameQueues.weight (h : SameQueues s t) : t.weight = s.weight := by
  rw [S3fifoCachePolicy.weight, smallLength, mainLength, h.small, h.main]
  rfl

theorem sameQueues_fix (s : S3fifoCachePolicy) :
    SameQueues s s.tryToFixDoublePrecisionIssue := ⟨rfl, rfl, rfl⟩

theorem sameQueues_evictFromGhost (h : s.evictFromGhost freedLength = some t) :
    SameQueues s t := by
  simp only [evictFromGhost, bind_eq_some_iff, pure_eq_some_iff] at h
  obtain ⟨tail, -, -, -, freed, -, rfl⟩ := h
  exact ⟨rfl, rfl, rfl⟩

theorem sameQueues_checkGhostCacheSize (h : s.checkGhostCacheSize freedLength = some t) :
    SameQueues s t :=
  (whileLoop_invariant (P := SameQueues s)
    (fun _ _ hsame _ hevict => hsame.trans (sameQueues_evictFromGhost hevict))
    (SameQueues.refl s) h).1

theorem sameQueues_insertIntoGhost (h : s.insertIntoGhost freedLength key = some t) :
    SameQueues s t := by
  simp only [insertIntoGhost, bind_eq_some_iff] at h
  obtain ⟨-, -, hcheck⟩ := h
  have hsame := sameQueues_checkGhostCacheSize hcheck
  exact ⟨hsame.small, hsame.main, hsame.capacityBytes⟩

theorem sameQueues_removeFromGhost (h : s.removeFromGhost key = some t) : SameQueues s t := by
  rw [removeFromGhost] at h
  split at h
  · cases h
    exact sameQueues_fix s
  · simp only [bind_eq_some_iff, pure_eq_some_iff] at h
    obtain ⟨ghost, -, -, -, rfl⟩ := h
    exact ⟨rfl, rfl, rfl⟩

/-- An access changes an object in its place. -/
theorem weight_access {newValue result : Option Value}
    (h : s.access key newValue = some (t, result)) :
    t.weight = s.weight ∧ t.capacityBytes = s.capacityBytes := by
  rw [S3fifoCachePolicy.access] at h
  split at h
  · cases h
    exact ⟨rfl, rfl⟩
  · next isSmallCache it _ =>
    simp only [bind_eq_some_iff, pure_eq_some_iff, Prod.mk.injEq] at h
    obtain ⟨item, hget, -, -, s', hremove, rfl, -⟩ := h
    have hsame := (sameQueues_removeFromGhost hremove).trans (sameQueues_fix s')
    have hset := length_toList_set hget
      { item.incrFreq with value := newValue.getD item.value }
    rw [hsame.weight, hsame.capacityBytes, S3fifoCachePolicy.weight, S3fifoCachePolicy.weight]
    cases isSmallCache with
    | true => exact ⟨congrArg (2 * · + s.mainLength) hset, rfl⟩
    | false => exact ⟨congrArg (2 * s.smallLength + ·) hset, rfl⟩

/-! ## Progress of an eviction -/

/-- A pass over the main queue leaves its length, unless it evicts. -/
structure MainPasses (s : S3fifoCachePolicy) (e : Eviction) : Prop where
  small : e.cache.small.queue = s.small.queue
  main : e.cache.mainLength + (if e.hasEvicted = true then 1 else 0) = s.mainLength
  capacityBytes : e.cache.capacityBytes = s.capacityBytes

theorem MainPasses.pass {e e' : Eviction} (h : MainPasses s e) (hopen : e.hasEvicted = false)
    (hpass : mainPass e = some e') : MainPasses s e' := by
  have hmain := h.main
  rw [hopen, if_neg Bool.false_ne_true, mainLength] at hmain
  rw [mainPass] at hpass
  split at hpass
  · cases hpass
  · next it item hback =>
    have hlength := length_toList_erase (get_of_back hback)
    split at hpass
    · -- the object is inserted again
      obtain ⟨c, hreinsert, rfl⟩ := Option.map_eq_some_iff.1 hpass
      simp only [reinsert, bind_eq_some_iff, pure_eq_some_iff] at hreinsert
      obtain ⟨item', -, -, -, rfl⟩ := hreinsert
      refine ⟨h.small, ?_, h.capacityBytes⟩
      show ((e.cache.main.queue.erase it).pushFront item').toList.length +
        (if e.hasEvicted = true then 1 else 0) = _
      rw [hopen, if_neg Bool.false_ne_true, toList_pushFront, List.length_cons]
      omega
    · cases hpass
      refine ⟨h.small, ?_, h.capacityBytes⟩
      show (e.cache.main.queue.erase it).toList.length + (if true = true then 1 else 0) = _
      rw [if_pos rfl]
      omega

/-- An eviction from the main queue takes one object off, if there is one. -/
theorem lengths_evictFromMain (h : s.evictFromMain freedLength victims = some (t, victims')) :
    t.small.queue = s.small.queue ∧ t.mainLength = s.mainLength - 1 ∧
      t.capacityBytes = s.capacityBytes := by
  simp only [evictFromMain, bind_eq_some_iff, pure_eq_some_iff, Prod.mk.injEq] at h
  obtain ⟨e, hloop, s', hcheck, rfl, -⟩ := h
  obtain ⟨hpasses, hclosed⟩ := whileLoop_invariant (P := MainPasses s)
    (fun e e' he hopen hpass =>
      he.pass (Bool.eq_false_iff.2 fun heq => by simp [heq] at hopen) hpass)
    ⟨rfl, rfl, rfl⟩ hloop
  have hsame := (sameQueues_checkGhostCacheSize hcheck).trans (sameQueues_fix s')
  refine ⟨hsame.small.trans hpasses.small, ?_, hsame.capacityBytes.trans hpasses.capacityBytes⟩
  have hlength : s'.tryToFixDoublePrecisionIssue.mainLength = e.cache.mainLength := by
    rw [mainLength, hsame.main, mainLength]
  have hmain := hpasses.main
  split at hmain
  · omega
  · next hopen =>
    -- the loop ended at an empty queue
    rw [Bool.eq_false_iff.2 hopen, Bool.not_false, Bool.true_and, decide_eq_false_iff_not]
      at hclosed
    have hzero : e.cache.mainLength = 0 := Nat.eq_zero_of_not_pos hclosed
    omega

/-- A pass over the small queue takes one object off it and adds at most one to the main queue. -/
theorem lengths_smallPass {e e' : Eviction} (h : smallPass freedLength e = some e') :
    e'.cache.smallLength + 1 = e.cache.smallLength ∧
      e'.cache.mainLength ≤ e.cache.mainLength + 1 ∧
        e'.cache.capacityBytes = e.cache.capacityBytes := by
  simp only [smallPass, bind_eq_some_iff, pure_eq_some_iff] at h
  obtain ⟨⟨it, item⟩, hback, e'', hmove, rfl⟩ := h
  have hmoved : e''.cache.small.queue = e.cache.small.queue ∧
      e''.cache.mainLength ≤ e.cache.mainLength + 1 ∧
        e''.cache.capacityBytes = e.cache.capacityBytes := by
    have hinserted : (e.cache.insertIntoMain item).mainLength = e.cache.mainLength + 1 := by
      show (e.cache.main.queue.pushFront item).toList.length = _
      rw [toList_pushFront, List.length_cons, mainLength]
    split at hmove
    · simp only [moveToMain] at hmove
      split at hmove
      · obtain ⟨⟨s', victims'⟩, hevict, rfl⟩ := Option.map_eq_some_iff.1 hmove
        obtain ⟨hsmall, hmain, hcapacity⟩ := lengths_evictFromMain hevict
        refine ⟨hsmall, ?_, hcapacity⟩
        show s'.mainLength ≤ _
        omega
      · cases hmove
        exact ⟨rfl, hinserted.le, rfl⟩
    · obtain ⟨s', hinsert, rfl⟩ := Option.map_eq_some_iff.1 hmove
      have hsame := sameQueues_insertIntoGhost hinsert
      refine ⟨hsame.small, ?_, hsame.capacityBytes⟩
      show s'.main.queue.toList.length ≤ _
      rw [hsame.main]
      exact Nat.le_succ _
  obtain ⟨hsmall, hmain, hcapacity⟩ := hmoved
  refine ⟨?_, hmain, hcapacity⟩
  show (e''.cache.small.queue.erase it).toList.length + 1 = _
  rw [hsmall]
  exact length_toList_erase (get_of_back hback)

/-- After some passes over the small queue: all of them took an object off it. -/
structure SmallPasses (s : S3fifoCachePolicy) (e : Eviction) : Prop where
  small : e.cache.smallLength ≤ s.smallLength
  weight : e.cache.weight + s.smallLength ≤ s.weight + e.cache.smallLength
  capacityBytes : e.cache.capacityBytes = s.capacityBytes
  started : e.hasEvicted = true → e.cache.smallLength < s.smallLength

/-- An eviction from the small queue makes progress, unless the queue is empty. -/
theorem weight_evictFromSmall (h : s.evictFromSmall freedLength victims = some (t, victims')) :
    t.weight ≤ s.weight ∧ (s.smallLength ≠ 0 → t.weight < s.weight) ∧
      t.capacityBytes = s.capacityBytes := by
  simp only [evictFromSmall, bind_eq_some_iff, pure_eq_some_iff, Prod.mk.injEq] at h
  obtain ⟨e, hloop, rfl, -⟩ := h
  obtain ⟨hpasses, hclosed⟩ := whileLoop_invariant (P := SmallPasses s)
    (fun e e' he _ hpass => by
      obtain ⟨hsmall, hmain, hcapacity⟩ := lengths_smallPass hpass
      obtain ⟨hle, hweight, hcap, -⟩ := he
      rw [S3fifoCachePolicy.weight] at hweight
      refine ⟨by omega, ?_, hcapacity.trans hcap, fun _ => by omega⟩
      rw [S3fifoCachePolicy.weight]
      omega)
    ⟨le_refl _, le_refl _, rfl, fun hevicted => absurd hevicted Bool.false_ne_true⟩ hloop
  have hsame := sameQueues_fix e.cache
  have hweight := hpasses.weight
  have hsmall := hpasses.small
  rw [hsame.weight]
  refine ⟨by omega, fun hne => ?_, hsame.capacityBytes.trans hpasses.capacityBytes⟩
  have hshorter : e.cache.smallLength < s.smallLength := by
    cases hevicted : e.hasEvicted with
    | true => exact hpasses.started hevicted
    | false =>
      -- the loop ended at an empty queue
      rw [hevicted, Bool.not_false, Bool.true_and, decide_eq_false_iff_not] at hclosed
      have hzero : e.cache.smallLength = 0 := Nat.eq_zero_of_not_pos hclosed
      omega
  omega

theorem weight_evictNoGivenKey (h : s.evictNoGivenKey freedLength victims = some (t, victims')) :
    t.weight ≤ s.weight ∧ t.capacityBytes = s.capacityBytes := by
  rw [S3fifoCachePolicy.evictNoGivenKey] at h
  split at h
  · obtain ⟨hle, -, hcapacity⟩ := weight_evictFromSmall h
    exact ⟨hle, hcapacity⟩
  · obtain ⟨hsmall, hmain, hcapacity⟩ := lengths_evictFromMain h
    refine ⟨?_, hcapacity⟩
    rw [S3fifoCachePolicy.weight, S3fifoCachePolicy.weight, smallLength, hsmall, smallLength]
    omega

/-! ## The queue that is chosen -/

section Queue

variable {α : Type} {keyOf : α → Key} {bytes : α → ℚ} {q : S3fifoQueue α}

/-- An empty queue counts nothing. -/
theorem Wf.size_eq_zero (h : Wf keyOf bytes q) (hnil : q.queue.toList = []) : q.size = 0 := by
  have hentries : q.keyLookup.entries = [] := by
    by_contra hne
    obtain ⟨k, it, hlookup⟩ := UnorderedMap.exists_lookup_of_entries_ne_nil q.keyLookup hne
    obtain ⟨a, hget, -⟩ := (h.indexes k it).1 hlookup
    have hmem := mem_toList_iff.2 ⟨it, hget⟩
    rw [hnil] at hmem
    cases hmem
  have hbytes : tableBytes q.keyLookup = 0 := by
    rw [tableBytes, UnorderedMap.sumBy, hentries]
    rfl
  rw [h.size, hnil, hbytes, List.map_nil, List.sum_nil, Nat.cast_zero, add_zero]

end Queue

/-- Without objects in the main queue the size is that of the small queue. -/
theorem Inv.getSizeForCapacity_eq (h : Inv s) (hmain : s.mainLength = 0) :
    s.getSizeForCapacity = s.small.size.floor.toNat := by
  have hsize := h.main.size_eq_zero (List.length_eq_zero_iff.1 hmain)
  have hghost := h.ghost.size_eq_zero
    (List.length_eq_zero_iff.1 (Nat.le_zero.1 (hmain ▸ h.ghostLength)))
  rw [S3fifoCachePolicy.getSizeForCapacity, hsize, hghost, add_zero, add_zero]

/-- Above the capacity the main queue is chosen only if it has an object. -/
theorem Inv.mainLength_ne_zero (h : Inv s) (hsize : s.getSizeForCapacity > s.capacityBytes)
    (hsmall : ¬ s.small.size ≥ 1 / 10 * s.capacityBytes) : s.mainLength ≠ 0 := by
  intro hzero
  rw [h.getSizeForCapacity_eq hzero] at hsize
  have hle : s.small.size.floor ≤ (s.capacityBytes : Int) := by
    rw [← Int.cast_le (R := ℚ)]
    have hfloor : ((s.small.size.floor : Int) : ℚ) ≤ s.small.size := Rat.floor_le s.small.size
    have hnonneg : (0 : ℚ) ≤ s.capacityBytes := Nat.cast_nonneg _
    push_cast
    linarith
  omega

/-- A cache above its capacity has an object. -/
theorem Inv.weight_ne_zero (h : Inv s) (hsize : s.getSizeForCapacity > 0) : s.weight ≠ 0 := by
  intro hzero
  rw [S3fifoCachePolicy.weight] at hzero
  have hmain : s.mainLength = 0 := by omega
  have hsmall : s.smallLength = 0 := by omega
  rw [h.getSizeForCapacity_eq hmain, h.small.size_eq_zero (List.length_eq_zero_iff.1 hsmall)]
    at hsize
  exact absurd hsize (by decide)

/-- An eviction above the capacity makes progress. -/
theorem Inv.evict_progress (h : Inv s) (hfreed : ReadsBack freedLength)
    (hcapacity : 0 < s.capacityBytes) (hsize : s.getSizeForCapacity > s.capacityBytes) :
    ∃ t victims, s.evictNoGivenKey freedLength ∅ = some (t, victims) ∧ Inv t ∧
      t.weight < s.weight ∧ t.capacityBytes = s.capacityBytes := by
  obtain ⟨t, victims, hevict, hinv, -⟩ := h.evictNoGivenKey hfreed
  refine ⟨t, victims, hevict, hinv, ?_, (weight_evictNoGivenKey hevict).2⟩
  rw [S3fifoCachePolicy.evictNoGivenKey] at hevict
  split at hevict
  · next hlarge =>
    apply (weight_evictFromSmall hevict).2.1
    -- an empty small queue is below its share
    intro hzero
    rw [h.small.size_eq_zero (List.length_eq_zero_iff.1 hzero)] at hlarge
    have hpos : (0 : ℚ) < s.capacityBytes := Nat.cast_pos.2 hcapacity
    linarith
  · next hlow =>
    have hne := h.mainLength_ne_zero hsize hlow
    obtain ⟨hsmall, hmain, -⟩ := lengths_evictFromMain hevict
    rw [S3fifoCachePolicy.weight, S3fifoCachePolicy.weight, smallLength, hsmall, smallLength]
    omega

/-! ## Runs -/

/-- The use that is promised: an admitted object is smaller than the cache and not larger than the
share of the small queue. -/
def Promised (s : S3fifoCachePolicy) : Action → Prop
  | .get _ => True
  | .update _ _ => True
  | .admitObject key value =>
      objectSize key value < s.capacityBytes ∧ s.canAdmit (objectSize key value) = true
  | .evictNoGivenKey => True

instance (s : S3fifoCachePolicy) : (a : Action) → Decidable (Promised s a)
  | .get _ => inferInstanceAs (Decidable True)
  | .update _ _ => inferInstanceAs (Decidable True)
  | .admitObject key value => inferInstanceAs (Decidable
      (objectSize key value < s.capacityBytes ∧ s.canAdmit (objectSize key value) = true))
  | .evictNoGivenKey => inferInstanceAs (Decidable True)

/-- The invariant, and that only a cache with a capacity has objects. -/
structure CanEvict (capacity : Nat) (s : S3fifoCachePolicy) : Prop where
  inv : Inv s
  capacityBytes : s.capacityBytes = capacity
  pos : s.weight ≠ 0 → 0 < capacity

variable {capacity : Nat}

/-- Nothing is admitted into a cache without a capacity. -/
theorem CanEvict.step {a : Action} {out : Output} (h : CanEvict capacity s)
    (hfreed : ReadsBack freedLength) (hpromised : Promised s a)
    (hstep : step freedLength s a = some (t, out)) : CanEvict capacity t := by
  have hinv : Inv t := by
    obtain ⟨s', out', hstep', hinv'⟩ := h.inv.step hfreed a
    rw [hstep', Option.some.injEq, Prod.mk.injEq] at hstep
    exact hstep.1 ▸ hinv'
  cases a with
  | get key =>
    obtain ⟨⟨s', value⟩, haccess, heq⟩ := Option.map_eq_some_iff.1 hstep
    cases heq
    obtain ⟨hweight, hcapacity⟩ := weight_access haccess
    exact ⟨hinv, hcapacity.trans h.capacityBytes, hweight ▸ h.pos⟩
  | update key value =>
    obtain ⟨⟨s', isCached⟩, hupdate, heq⟩ := Option.map_eq_some_iff.1 hstep
    obtain ⟨⟨s'', old⟩, haccess, heq'⟩ := Option.map_eq_some_iff.1 hupdate
    cases heq'
    cases heq
    obtain ⟨hweight, hcapacity⟩ := weight_access haccess
    exact ⟨hinv, hcapacity.trans h.capacityBytes, hweight ▸ h.pos⟩
  | admitObject key value =>
    obtain ⟨s', hadmitted, heq⟩ := Option.map_eq_some_iff.1 hstep
    cases heq
    have hsame : t.capacityBytes = s.capacityBytes := by
      rw [S3fifoCachePolicy.admitObject] at hadmitted
      split at hadmitted
      · cases hadmitted
        rfl
      · dsimp only at hadmitted
        split at hadmitted
        · exact (sameQueues_removeFromGhost hadmitted).capacityBytes
        · exact (sameQueues_removeFromGhost hadmitted).capacityBytes
    have hpos : 0 < s.capacityBytes := Nat.zero_lt_of_lt hpromised.1
    exact ⟨hinv, hsame.trans h.capacityBytes, fun _ => h.capacityBytes ▸ hpos⟩
  | evictNoGivenKey =>
    obtain ⟨⟨s', victims⟩, hevict, heq⟩ := Option.map_eq_some_iff.1 hstep
    cases heq
    obtain ⟨hweight, hcapacity⟩ := weight_evictNoGivenKey hevict
    refine ⟨hinv, hcapacity.trans h.capacityBytes, fun hne => h.pos ?_⟩
    exact Nat.pos_iff_ne_zero.1 ((Nat.pos_iff_ne_zero.2 hne).trans_le hweight)

theorem canEvict_of_runs (hfreed : ReadsBack freedLength) {tr : List (Action × Output)}
    (h : Runs (step freedLength) Promised (create capacity) tr s) :
    CanEvict capacity s :=
  h.invariant ⟨inv_create capacity, rfl, fun hne => absurd rfl hne⟩
    fun hinv hpromised hstep => hinv.step hfreed hpromised hstep

/-! ## Draining -/

/-- The eviction without a given key. -/
def S3fifoCachePolicy.evict (freedLength : FreedLength) (s : S3fifoCachePolicy) :
    Option S3fifoCachePolicy :=
  (s.evictNoGivenKey freedLength ∅).map Prod.fst

/-- Evictions above the capacity come to an end. -/
theorem CanEvict.ends (h : CanEvict capacity s) (hfreed : ReadsBack freedLength) :
    ∃ t, whileLoop (fun s => decide (s.getSizeForCapacity > capacity)) (evict freedLength)
      s.weight s = some t := by
  have hpass : ∀ u, CanEvict capacity u → decide (u.getSizeForCapacity > capacity) = true →
      ∃ v, u.evict freedLength = some v ∧ CanEvict capacity v ∧ v.weight < u.weight := by
    intro u hu hlarge
    have hlarge := of_decide_eq_true hlarge
    have hpos : 0 < capacity := hu.pos (hu.inv.weight_ne_zero (Nat.zero_lt_of_lt hlarge))
    obtain ⟨v, victims, hevict, hinv, hweight, hcapacity⟩ :=
      hu.inv.evict_progress hfreed (hu.capacityBytes ▸ hpos) (hu.capacityBytes ▸ hlarge)
    refine ⟨v, ?_, ⟨hinv, hcapacity.trans hu.capacityBytes, fun _ => hpos⟩, hweight⟩
    rw [S3fifoCachePolicy.evict, hevict, Option.map_some]
  obtain ⟨t, hloop, -, -⟩ := whileLoop_spec weight hpass h (le_refl s.weight)
  exact ⟨t, hloop⟩

end Covered.Cache.S3fifo
