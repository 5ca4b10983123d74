import Mathlib.Algebra.Order.BigOperators.Group.List
import Mathlib.Tactic.Linarith
import Mathlib.Tactic.Ring
import Covered.Cache.S3fifoCachePolicy
import Covered.Lib.Departures

/-!
# Representation and victims of the S3-FIFO policy

`QueuesWf` says that the three queues match their tables and counters, and `Inv` adds where a key
may be: a key of the small queue is in no other queue, a ghost is not cached, and there are not more
ghosts than objects in the main queue. The objects of a queue are known by `valueIn`, and each
operation on a queue has one lemma that says how it changes this function.

An eviction from the small queue moves objects to the main queue before it takes them out of the
small queue. In between a key is in both queues, and an eviction from the main queue may drop the
very object that was just moved. So the lemmas about the main queue speak of `QueuesWf` only, and
`Inv` is shown again at the end of each pass (`SmallLoop.pass`). `Departed` says what the victims of
a loop are: the objects that were cached at its start and are no longer cached.

All of this needs `ReadsBack`: the length that is read from an erased ghost is the length of its
key. Nothing in the language promises it, and without it the counter of the ghost queue is wrong
from the first ghost that is dropped (`ghost_counter_wrong`).
-/

set_option autoImplicit false

namespace Covered.Cache.S3fifo

open Common Lib Lib.Checked Lib.Execution UnorderedMap LinkedList Option S3fifoItem

/-! ## Queues -/

section Queue

variable {α : Type} {keyOf : α → Key} {bytes : α → ℚ} {q : S3fifoQueue α} {it : Nat} {a b : α}
  {key k : Key}

variable {table : UnorderedMap Key Nat}

theorem tableBytes_insert (h : table.lookup key = none) (it : Nat) :
    (tableBytes (table.insert key it) : ℚ) = tableBytes table + entryBytes key := by
  have hinsert := sumBy_insert (fun (k : Key) (_ : Nat) => k.getKeyLength + 8)
    table key it
  rw [h, elim_none, Nat.add_zero] at hinsert
  rw [tableBytes, hinsert, entryBytes, tableBytes]
  push_cast
  rfl

theorem tableBytes_reinsert (h : table.lookup key = some it) (it' : Nat) :
    tableBytes (table.insert key it') = tableBytes table := by
  have hinsert := sumBy_insert (fun (k : Key) (_ : Nat) => k.getKeyLength + 8)
    table key it'
  rw [h, elim_some] at hinsert
  exact Nat.add_right_cancel hinsert

theorem tableBytes_erase (h : table.lookup key = some it) :
    (tableBytes (table.erase key) : ℚ) = tableBytes table - entryBytes key := by
  have herase := sumBy_erase (fun (k : Key) (_ : Nat) => k.getKeyLength + 8)
    table key
  rw [h, elim_some] at herase
  rw [eq_sub_iff_add_eq, tableBytes, tableBytes, ← herase, entryBytes]
  push_cast
  rfl

theorem wf_empty : Wf keyOf bytes ({} : S3fifoQueue α) where
  indexes := Indexes.empty fun _ => rfl
  size := (add_zero 0).symm

section Wf

variable (h : Wf keyOf bytes q)
include h

theorem Wf.find_of_get (hget : q.queue.get it = some a) : q.find (keyOf a) = some a :=
  h.indexes.found_of_get hget

theorem Wf.find_eq_none_iff : q.find key = none ↔ q.keyLookup.lookup key = none :=
  h.indexes.found_eq_none_iff

/-- A new element. -/
theorem Wf.insertFront (hnew : q.find (keyOf a) = none) :
    Wf keyOf bytes (q.insertFront keyOf bytes a) ∧
      ∀ k, (q.insertFront keyOf bytes a).find k = if k = keyOf a then some a else q.find k := by
  have hlookup := h.find_eq_none_iff.1 hnew
  have htable : (q.insertFront keyOf bytes a).keyLookup =
      q.keyLookup.insert (keyOf a) q.queue.next := by
    show insertNew _ _ _ = _
    rw [insertNew, hlookup]
    rfl
  have hget : (q.insertFront keyOf bytes a).queue.get =
      Function.update q.queue.get q.queue.next (some a) := get_pushFront_eq
  have hunused : q.queue.get q.queue.next = none := get_next
  refine ⟨⟨?_, ?_⟩, fun k => ?_⟩
  · rw [htable, hget]
    exact h.indexes.insert hlookup hunused
  · rw [htable, tableBytes_insert hlookup]
    show q.size + bytes a + entryBytes (keyOf a) =
      ((q.queue.pushFront a).toList.map bytes).sum + _
    rw [sum_map_pushFront, h.size]
    ring
  · rw [S3fifoQueue.find, htable, hget]
    exact h.indexes.found_insert hunused

/-- An element leaves. -/
theorem Wf.eraseAt (hget : q.queue.get it = some a) :
    Wf keyOf bytes (q.eraseAt keyOf bytes it a) ∧
      ∀ k, (q.eraseAt keyOf bytes it a).find k = if k = keyOf a then none else q.find k := by
  have hlookup := h.indexes.lookup_of_get hget
  have herase : (q.eraseAt keyOf bytes it a).queue.get = Function.update q.queue.get it none :=
    get_erase_eq
  refine ⟨⟨?_, ?_⟩, fun k => ?_⟩
  · rw [herase]
    exact h.indexes.erase hget
  · show q.size - entryBytes (keyOf a) - bytes a =
      ((q.queue.erase it).toList.map bytes).sum + tableBytes (q.keyLookup.erase (keyOf a))
    rw [tableBytes_erase hlookup, sum_map_erase bytes hget, h.size]
    ring
  · rw [S3fifoQueue.find, herase]
    exact h.indexes.found_erase hget

/-- An element is exchanged for one with the same key. -/
theorem Wf.set (hget : q.queue.get it = some a) (hkey : keyOf b = keyOf a) {size : ℚ}
    (hsize : size = q.size - bytes a + bytes b) :
    Wf keyOf bytes { q with queue := q.queue.set it b, size := size } ∧
      ∀ k, ({ q with queue := q.queue.set it b, size := size } : S3fifoQueue α).find k =
        if k = keyOf a then some b else q.find k := by
  have hset : (q.queue.set it b).get = Function.update q.queue.get it (some b) :=
    get_set_eq hget
  refine ⟨⟨?_, ?_⟩, fun k => ?_⟩
  · show Indexes keyOf q.keyLookup (q.queue.set it b).get
    rw [hset]
    exact h.indexes.set hget hkey
  · show size = ((q.queue.set it b).toList.map bytes).sum + tableBytes q.keyLookup
    rw [hsize, sum_map_set bytes hget, h.size]
    ring
  · show found q.keyLookup (q.queue.set it b).get k = _
    rw [hset]
    exact h.indexes.found_set hget

/-- An element moves to the head, where it is exchanged for one with the same key and size. -/
theorem Wf.moveToFront (hget : q.queue.get it = some a) (hkey : keyOf b = keyOf a)
    (hbytes : bytes b = bytes a) :
    Wf keyOf bytes (q.moveToFront keyOf it b) ∧
      ∀ k, (q.moveToFront keyOf it b).find k = if k = keyOf a then some b else q.find k := by
  have htable : (q.moveToFront keyOf it b).keyLookup =
      q.keyLookup.insert (keyOf a) q.queue.next := by
    rw [← hkey]
    rfl
  have hmove : (q.moveToFront keyOf it b).queue.get =
      Function.update (Function.update q.queue.get it none) q.queue.next (some b) := by
    show ((q.queue.erase it).pushFront b).get = _
    rw [get_pushFront_eq, get_erase_eq]
    rfl
  have hunused : q.queue.get q.queue.next = none := get_next
  refine ⟨⟨?_, ?_⟩, fun k => ?_⟩
  · rw [htable, hmove]
    exact h.indexes.move hget hkey hunused
  · rw [htable, tableBytes_reinsert (h.indexes.lookup_of_get hget)]
    show q.size = (((q.queue.erase it).pushFront b).toList.map bytes).sum + _
    rw [sum_map_pushFront, sum_map_erase bytes hget, h.size, hbytes]
    ring
  · rw [S3fifoQueue.find, htable, hmove]
    exact h.indexes.found_move hget hunused

/-- A counter of a queue is not negative. -/
theorem Wf.fixSize (hbytes : ∀ a, 0 ≤ bytes a) : q.fixSize = q := by
  have hnonneg : ¬ q.size < 0 := by
    rw [h.size, not_lt]
    refine add_nonneg (List.sum_nonneg ?_) (Nat.cast_nonneg _)
    intro x hx
    obtain ⟨a, -, rfl⟩ := List.mem_map.1 hx
    exact hbytes a
  rw [S3fifoQueue.fixSize, if_neg hnonneg]

end Wf

end Queue

/-! ## The ghost queue -/

variable {freedLength : FreedLength} {s s' : S3fifoCachePolicy} {key k : Key} {value : Value}
  {item : S3fifoItem} {victims : Victims} {it : Nat}

open S3fifoCachePolicy

theorem ghostBytes_nonneg (key : Key) : 0 ≤ ghostBytes key := Nat.cast_nonneg _

theorem getSizeForCapacity_nonneg (item : S3fifoItem) : 0 ≤ item.getSizeForCapacity := by
  have hkey : (0 : ℚ) ≤ item.key.getKeyLength := Nat.cast_nonneg _
  have hvalue : (0 : ℚ) ≤ item.value.valuesize := Nat.cast_nonneg _
  rw [S3fifoItem.getSizeForCapacity]
  linarith

/-- The queue of objects matches its table and its counter. -/
abbrev WfItems (q : ItemQueue) : Prop := Wf S3fifoItem.key S3fifoItem.getSizeForCapacity q

/-- The ghost queue matches its table and its counter. -/
abbrev WfGhost (q : S3fifoQueue Key) : Prop := Wf id ghostBytes q

/-- The three queues match their tables and counters. -/
structure QueuesWf (s : S3fifoCachePolicy) : Prop where
  small : WfItems s.small
  main : WfItems s.main
  ghost : WfGhost s.ghost

/-- With exact counters there is nothing to fix. -/
theorem QueuesWf.tryToFixDoublePrecisionIssue (h : QueuesWf s) :
    s.tryToFixDoublePrecisionIssue = s := by
  rw [S3fifoCachePolicy.tryToFixDoublePrecisionIssue, h.small.fixSize getSizeForCapacity_nonneg,
    h.main.fixSize getSizeForCapacity_nonneg, h.ghost.fixSize ghostBytes_nonneg]

/-- No ghost of one queue is missing in the other. -/
def GhostsWithin (g g' : S3fifoQueue Key) : Prop :=
  ∀ k, g.find k ≠ none → g'.find k ≠ none

/-- A key leaves the ghost queue. -/
theorem QueuesWf.removeFromGhost (h : QueuesWf s) (key : Key) :
    ∃ g, s.removeFromGhost key = some { s with ghost := g } ∧ WfGhost g ∧ g.find key = none ∧
      GhostsWithin g s.ghost ∧ g.queue.toList.length ≤ s.ghost.queue.toList.length := by
  rw [S3fifoCachePolicy.removeFromGhost]
  cases hlookup : s.ghost.keyLookup.lookup key with
  | none =>
    exact ⟨s.ghost, congrArg some h.tryToFixDoublePrecisionIssue, h.ghost,
      h.ghost.find_eq_none_iff.2 hlookup, fun _ hk => hk, le_refl _⟩
  | some it =>
    obtain ⟨ghost, hget, hkey⟩ := (h.ghost.indexes key it).1 hlookup
    obtain rfl : ghost = key := hkey
    obtain ⟨hwf, hfind⟩ := h.ghost.eraseAt hget
    have hqueues : QueuesWf { s with ghost := s.ghost.eraseAt id ghostBytes it ghost } :=
      ⟨h.small, h.main, hwf⟩
    refine ⟨_, ?_, hwf, ?_, fun k hk => ?_, ?_⟩
    · simp only [hget, some_bind, require_bind, pure_def,
        hqueues.tryToFixDoublePrecisionIssue]
    · rw [hfind]
      exact if_pos rfl
    · rw [hfind] at hk
      split at hk
      · exact absurd rfl hk
      · exact hk
    · exact Nat.le_of_lt (Nat.lt_of_succ_le (length_toList_erase hget).le)

/-- The oldest ghost is dropped. -/
theorem QueuesWf.evictFromGhost (h : QueuesWf s) (hfreed : ReadsBack freedLength)
    (hlong : s.ghostTooLong = true) :
    ∃ g, s.evictFromGhost freedLength = some { s with ghost := g } ∧ WfGhost g ∧
      GhostsWithin g s.ghost ∧
      g.queue.toList.length + 1 = s.ghost.queue.toList.length := by
  cases hback : s.ghost.queue.back with
  | none =>
    rw [ghostTooLong, decide_eq_true_iff, back_eq_none_iff.1 hback] at hlong
    exact absurd hlong (Nat.not_lt_zero _)
  | some tail =>
    obtain ⟨it, ghost⟩ := tail
    have hget := get_of_back hback
    have hentry : s.ghost.keyLookup.lookup ghost = some it := h.ghost.indexes.lookup_of_get hget
    have hlookup : (s.ghost.keyLookup.lookup ghost).isSome = true := by
      rw [hentry, isSome_some]
    obtain ⟨hwf, hfind⟩ := h.ghost.eraseAt hget
    have hqueues : QueuesWf { s with ghost := s.ghost.eraseAt id ghostBytes it ghost } :=
      ⟨h.small, h.main, hwf⟩
    refine ⟨_, ?_, hwf, fun k hk => ?_, length_toList_erase hget⟩
    · simp only [S3fifoCachePolicy.evictFromGhost, hback, some_bind, require_bind hlookup,
        hfreed s it ghost hlong hback, pure_def]
      exact congrArg some hqueues.tryToFixDoublePrecisionIssue
    · rw [hfind] at hk
      split at hk
      · exact absurd rfl hk
      · exact hk

/-- The ghost queue is cut down to the length of the main queue. -/
theorem QueuesWf.checkGhostCacheSize (h : QueuesWf s) (hfreed : ReadsBack freedLength) :
    ∃ g, s.checkGhostCacheSize freedLength = some { s with ghost := g } ∧ WfGhost g ∧
      GhostsWithin g s.ghost ∧ g.queue.toList.length ≤ s.main.queue.toList.length := by
  obtain ⟨t, hloop, ⟨g, rfl, hwf, hwithin⟩, hend⟩ := whileLoop_spec
    (c := ghostTooLong) (f := S3fifoCachePolicy.evictFromGhost freedLength)
    (P := fun t => ∃ g, t = { s with ghost := g } ∧ WfGhost g ∧ GhostsWithin g s.ghost)
    (fun t => t.ghost.queue.toList.length)
    (by
      rintro t ⟨g, rfl, hwf, hwithin⟩ hlong
      have hqueues : QueuesWf { s with ghost := g } := ⟨h.small, h.main, hwf⟩
      obtain ⟨g', hevict, hwf', hwithin', hlength⟩ := hqueues.evictFromGhost hfreed hlong
      exact ⟨_, hevict, ⟨g', rfl, hwf', fun k hk => hwithin k (hwithin' k hk)⟩,
        Nat.lt_of_succ_le hlength.le⟩)
    ⟨s.ghost, rfl, h.ghost, fun _ hk => hk⟩ (le_refl s.ghost.queue.toList.length)
  rw [ghostTooLong, decide_eq_false_iff_not, not_lt] at hend
  exact ⟨g, hloop, hwf, hwithin, hend⟩

/-- A key enters the ghost queue. -/
theorem QueuesWf.insertIntoGhost (h : QueuesWf s) (hfreed : ReadsBack freedLength)
    (hnew : s.ghost.find key = none) :
    ∃ g, s.insertIntoGhost freedLength key = some { s with ghost := g } ∧ WfGhost g ∧
      (∀ k, g.find k ≠ none → k = key ∨ s.ghost.find k ≠ none) ∧
      g.queue.toList.length ≤ s.main.queue.toList.length := by
  obtain ⟨hwf, hfind⟩ := h.ghost.insertFront (a := key) hnew
  have hqueues : QueuesWf { s with ghost := s.ghost.insertFront id ghostBytes key } :=
    ⟨h.small, h.main, hwf⟩
  obtain ⟨g, hcheck, hwf', hwithin, hlength⟩ := hqueues.checkGhostCacheSize hfreed
  refine ⟨g, ?_, hwf', fun k hk => ?_, hlength⟩
  · simp only [S3fifoCachePolicy.insertIntoGhost, require_bind (h.ghost.find_eq_none_iff.1 hnew),
      hcheck]
  · have hsome := hwithin k hk
    rw [hfind] at hsome
    split at hsome
    · next heq => exact .inl heq
    · exact .inr hsome

/-! ## Eviction from the main queue -/

/-- The objects of one queue are those of the other but for the given key. -/
def Without (q q' : ItemQueue) (key : Key) : Prop :=
  ∀ k, valueIn q' k = if k = key then none else valueIn q k

/-- Nothing was evicted, or one object of the queue, which became a victim. -/
def EvictsOne (q q' : ItemQueue) (victims victims' : Victims) : Prop :=
  (victims' = victims ∧ ∀ k, valueIn q' k = valueIn q k) ∨
    ∃ key value, valueIn q key = some value ∧ Without q q' key ∧
      victims' = UnorderedMap.insertNew victims key value

/-- The state of the loop over the main queue. -/
structure MainLoop (s : S3fifoCachePolicy) (victims : Victims) (e : Eviction) : Prop where
  cache : e.cache = { s with main := e.cache.main }
  main : WfItems e.cache.main
  pending : e.hasEvicted = false →
    e.victims = victims ∧ ∀ k, valueIn e.cache.main k = valueIn s.main k
  evicts : EvictsOne s.main e.cache.main victims e.victims

/-- The passes that are left: every reinsertion takes one off a frequency. -/
def mainMeasure (e : Eviction) : Nat := if e.hasEvicted = true then 0 else e.cache.mainFuel

variable {q : ItemQueue}

theorem valueIn_of_find (h : q.find key = some item) :
    valueIn q key = some item.value := by
  rw [valueIn, h, map_some]

/-- A reinsertion keeps the values. -/
theorem Wf.valueIn_moveToFront (h : WfItems q) (hget : q.queue.get it = some item) (freq : Nat) :
    WfItems (q.moveToFront S3fifoItem.key it { item with freq := freq }) ∧
      ∀ k, valueIn (q.moveToFront S3fifoItem.key it { item with freq := freq }) k =
        valueIn q k := by
  obtain ⟨hwf, hfind⟩ := h.moveToFront (b := { item with freq := freq }) hget rfl rfl
  refine ⟨hwf, fun k => ?_⟩
  rw [valueIn, hfind]
  split
  · next hk =>
    rw [hk, valueIn_of_find (h.find_of_get hget)]
    rfl
  · rfl

/-- A pass over the main queue. -/
theorem MainLoop.pass {e : Eviction} (h : MainLoop s victims e)
    (hopen : (!e.hasEvicted && decide (e.cache.main.queue.toList.length > 0)) = true) :
    ∃ e', mainPass e = some e' ∧ MainLoop s victims e' ∧ mainMeasure e' < mainMeasure e := by
  rw [Bool.and_eq_true, Bool.not_eq_true', decide_eq_true_iff] at hopen
  obtain ⟨hnot, hlength⟩ := hopen
  obtain ⟨hvictims, hvalues⟩ := h.pending hnot
  have hmeasure : mainMeasure e = e.cache.mainFuel := by
    rw [mainMeasure, hnot, if_neg Bool.false_ne_true]
  cases hback : e.cache.main.queue.back with
  | none =>
    rw [back_eq_none_iff.1 hback] at hlength
    exact absurd hlength (Nat.lt_irrefl 0)
  | some tail =>
    obtain ⟨it, item⟩ := tail
    have hget := get_of_back hback
    by_cases hfreq : item.freq > 0
    · -- the object is inserted again
      obtain ⟨hwf, hsame⟩ := h.main.valueIn_moveToFront hget (item.freq - 1)
      have hlookup : (e.cache.main.keyLookup.lookup item.key).isSome = true := by
        rw [h.main.indexes.lookup_of_get hget, isSome_some]
      have hreinsert : e.cache.reinsert it item = some { e.cache with
          main := e.cache.main.moveToFront S3fifoItem.key it
            { item with freq := item.freq - 1 } } := by
        simp only [reinsert, S3fifoItem.decrFreq, require_bind hfreq, require_bind hlookup,
          pure_def, some_bind]
      refine ⟨{ e with cache := { e.cache with
          main := e.cache.main.moveToFront key it
            { item with freq := item.freq - 1 } } }, ?_, ⟨?_, hwf, fun _ =>
        ⟨hvictims, fun k => (hsame k).trans (hvalues k)⟩,
        .inl ⟨hvictims, fun k => (hsame k).trans (hvalues k)⟩⟩, ?_⟩
      · simp only [mainPass, hback, if_pos hfreq, hreinsert, map_some]
      · rw [h.cache]
      · have hsum := sum_toList_erase freq hget
        have hlen := length_toList_erase hget
        rw [hmeasure, mainMeasure, hnot, if_neg Bool.false_ne_true, mainFuel, mainFuel]
        show (((e.cache.main.queue.erase it).pushFront _).toList.map freq).sum +
          ((e.cache.main.queue.erase it).pushFront _).toList.length < _
        rw [toList_pushFront, List.map_cons, List.sum_cons, List.length_cons]
        show item.freq - 1 + _ + _ < _
        omega
    · -- the object is the victim
      obtain ⟨hwf, hfind⟩ := h.main.eraseAt hget
      have hvalue : valueIn s.main item.key = some item.value :=
        (hvalues item.key).symm.trans (valueIn_of_find (h.main.find_of_get hget))
      refine ⟨{
          cache := { e.cache with
            main := e.cache.main.eraseAt key getSizeForCapacity it item }
          victims := insertNew e.victims item.key item.value
          hasEvicted := true }, ?_, ⟨?_, hwf, ?_,
        .inr ⟨item.key, item.value, hvalue, fun k => ?_, ?_⟩⟩, ?_⟩
      · simp only [mainPass, hback, if_neg hfreq]
      · rw [h.cache]
      · intro hopen
        cases hopen
      · rw [← hvalues k, valueIn, hfind]
        split
        · rfl
        · rfl
      · rw [hvictims]
      · rw [hmeasure, mainMeasure, if_pos rfl, mainFuel]
        omega

/-- An eviction from the main queue evicts one object, unless the queue is empty. -/
theorem QueuesWf.evictFromMain (h : QueuesWf s) (hfreed : ReadsBack freedLength)
    (victims : Victims) :
    ∃ m g victims', s.evictFromMain freedLength victims =
        some ({ s with main := m, ghost := g }, victims') ∧ WfItems m ∧ WfGhost g ∧
      GhostsWithin g s.ghost ∧ g.queue.toList.length ≤ m.queue.toList.length ∧
      EvictsOne s.main m victims victims' := by
  have hstart : MainLoop s victims { cache := s, victims := victims, hasEvicted := false } :=
    ⟨rfl, h.main, fun _ => ⟨rfl, fun _ => rfl⟩, .inl ⟨rfl, fun _ => rfl⟩⟩
  obtain ⟨e, hloop, hmain, -⟩ := whileLoop_spec mainMeasure (fun _ => MainLoop.pass) hstart
    (le_refl s.mainFuel)
  have hqueues : QueuesWf e.cache := by
    rw [hmain.cache]
    exact ⟨h.small, hmain.main, h.ghost⟩
  obtain ⟨g, hcheck, hwf, hwithin, hlength⟩ := hqueues.checkGhostCacheSize hfreed
  have hghost : e.cache.ghost = s.ghost := by rw [hmain.cache]
  have hfixed : QueuesWf { e.cache with ghost := g } := ⟨hqueues.small, hqueues.main, hwf⟩
  refine ⟨e.cache.main, g, e.victims, ?_, hmain.main, hwf, ?_, hlength, hmain.evicts⟩
  · simp only [S3fifoCachePolicy.evictFromMain, hloop, some_bind, hcheck, pure_def,
      hfixed.tryToFixDoublePrecisionIssue]
    rw [hmain.cache]
  · rw [← hghost]
    exact hwithin

/-! ## The invariant -/

/-- The queues match their tables and counters and share no key. -/
structure Inv (s : S3fifoCachePolicy) : Prop extends QueuesWf s where
  smallMain : ∀ k, valueIn s.small k ≠ none → valueIn s.main k = none
  ghostSmall : ∀ k, s.ghost.find k ≠ none → valueIn s.small k = none
  ghostMain : ∀ k, s.ghost.find k ≠ none → valueIn s.main k = none
  ghostLength : s.ghost.queue.toList.length ≤ s.main.queue.toList.length

variable {before : S3fifoCachePolicy}

theorem valueIn_eq_none_iff : valueIn q key = none ↔ q.find key = none :=
  map_eq_none_iff

/-! ## Eviction from the small queue -/

/-- The small queue without its tail. -/
theorem Wf.valueIn_eraseAt (h : WfItems q) (hget : q.queue.get it = some item) :
    WfItems (q.eraseAt S3fifoItem.key getSizeForCapacity it item) ∧
      Without q (q.eraseAt S3fifoItem.key getSizeForCapacity it item) item.key := by
  obtain ⟨hwf, hfind⟩ := h.eraseAt hget
  refine ⟨hwf, fun k => ?_⟩
  rw [valueIn, hfind]
  split
  · rfl
  · rfl

theorem Wf.valueIn_insertFront (h : WfItems q) (item : S3fifoItem)
    (hnew : valueIn q item.key = none) :
    WfItems (q.insertFront S3fifoItem.key getSizeForCapacity item) ∧
      ∀ k, valueIn (q.insertFront S3fifoItem.key getSizeForCapacity item) k =
        if k = item.key then some item.value else valueIn q k := by
  obtain ⟨hwf, hfind⟩ := h.insertFront (valueIn_eq_none_iff.1 hnew)
  refine ⟨hwf, fun k => ?_⟩
  rw [valueIn, hfind]
  split
  · rfl
  · rfl

/-- The state of the loop over the small queue. -/
structure SmallLoop (before : S3fifoCachePolicy) (e : Eviction) : Prop where
  inv : Inv e.cache
  departed : Departed before.cached e.cache.cached e.victims

theorem EvictsOne.valueIn_eq_none {q' : ItemQueue} {victims' : Victims}
    (h : EvictsOne q q' victims victims') (hnone : valueIn q key = none) :
    valueIn q' key = none := by
  rcases h with ⟨-, hsame⟩ | ⟨k, value, -, hwithout, -⟩
  · rw [hsame key, hnone]
  · rw [hwithout key, hnone, ite_self]

/-- The oldest object of the small queue has entered the main queue, which may have evicted an
object, and leaves the small queue. -/
theorem SmallLoop.moved {e : Eviction} {m : ItemQueue} {g : S3fifoQueue Key} {victims' : Victims}
    (h : SmallLoop before e) (hget : e.cache.small.queue.get it = some item) (hm : WfItems m)
    (hg : WfGhost g) (hwithin : GhostsWithin g e.cache.ghost)
    (hlength : g.queue.toList.length ≤ m.queue.toList.length)
    (hevicts : EvictsOne (e.cache.main.insertFront S3fifoItem.key getSizeForCapacity
      item) m e.victims victims') (hasEvicted : Bool) :
    SmallLoop before {
      cache := { e.cache with
        small := e.cache.small.eraseAt S3fifoItem.key getSizeForCapacity it item
        main := m
        ghost := g }
      victims := victims'
      hasEvicted := hasEvicted } := by
  have hinv := h.inv
  obtain ⟨hsmall, hwithout⟩ := hinv.small.valueIn_eraseAt hget
  have hvalue : valueIn e.cache.small item.key = some item.value :=
    valueIn_of_find (hinv.small.find_of_get hget)
  have hsome : valueIn e.cache.small item.key ≠ none := by
    rw [hvalue]
    exact some_ne_none _
  obtain ⟨-, hinserted⟩ := hinv.main.valueIn_insertFront item (hinv.smallMain item.key hsome)
  have hnone : ∀ k ≠ item.key, valueIn e.cache.main k = none → valueIn m k = none := by
    intro k hk hmain
    apply hevicts.valueIn_eq_none
    rw [hinserted k, if_neg hk, hmain]
  -- the main queue with the object makes up for the small queue without it
  have hmoved : ∀ k, (if k = item.key then none else valueIn e.cache.small k).or
      (valueIn (e.cache.main.insertFront key getSizeForCapacity item) k) =
        e.cache.cached k := by
    intro k
    rw [hinserted k, cached]
    split
    · next hk => rw [hk, hvalue, none_or, some_or]
    · rfl
  refine ⟨⟨⟨hsmall, hm, hg⟩, fun k hk => ?_, fun k hk => ?_, fun k hk => ?_, hlength⟩, ?_⟩
  · rw [hwithout k] at hk
    split at hk
    · exact absurd rfl hk
    · next hne => exact hnone k hne (hinv.smallMain k hk)
  · rw [hwithout k, hinv.ghostSmall k (hwithin k hk), ite_self]
  · have hnotSmall := hinv.ghostSmall k (hwithin k hk)
    refine hnone k ?_ (hinv.ghostMain k (hwithin k hk))
    rintro rfl
    exact hsome hnotSmall
  · have hcached : ∀ k, ({ e.cache with
        small := e.cache.small.eraseAt key getSizeForCapacity it item
        main := m
        ghost := g } : S3fifoCachePolicy).cached k =
          (if k = item.key then none else valueIn e.cache.small k).or (valueIn m k) := by
      intro k
      rw [cached, ← hwithout k]
    rcases hevicts with ⟨rfl, hsame⟩ | ⟨key, value, hvictim, hleft, rfl⟩
    · apply h.departed.congr
      intro k
      rw [hcached k, hsame k, hmoved k]
    · -- the victim of the main queue is not in the small queue
      have hnotSmall : (if key = item.key then none else valueIn e.cache.small key) = none := by
        split
        · rfl
        · next hne =>
          rw [hinserted key, if_neg hne] at hvictim
          by_contra hsmall
          rw [hinv.smallMain key hsmall] at hvictim
          cases hvictim
      apply h.departed.remove key
      · rw [← hmoved key, hnotSmall, none_or, hvictim]
      · intro k
        rw [hcached k, hleft k]
        by_cases hk : k = key
        · rw [hk, if_pos rfl, if_pos rfl, hnotSmall, or_none]
        · rw [if_neg hk, if_neg hk, hmoved k]

/-- A pass over the small queue. -/
theorem SmallLoop.pass {e : Eviction} (hfreed : ReadsBack freedLength) (h : SmallLoop before e)
    (hopen : (!e.hasEvicted && decide (e.cache.small.queue.toList.length > 0)) = true) :
    ∃ e', smallPass freedLength e = some e' ∧ SmallLoop before e' ∧
      e'.cache.small.queue.toList.length < e.cache.small.queue.toList.length := by
  have hinv := h.inv
  rw [Bool.and_eq_true, Bool.not_eq_true', decide_eq_true_iff] at hopen
  cases hback : e.cache.small.queue.back with
  | none =>
    rw [back_eq_none_iff.1 hback] at hopen
    exact absurd hopen.2 (Nat.lt_irrefl 0)
  | some tail =>
    obtain ⟨it, item⟩ := tail
    have hget := get_of_back hback
    have hshorter : (e.cache.small.queue.erase it).toList.length <
        e.cache.small.queue.toList.length :=
      Nat.lt_of_succ_le (length_toList_erase hget).le
    have hvalue : valueIn e.cache.small item.key = some item.value :=
      valueIn_of_find (hinv.small.find_of_get hget)
    have hsome : valueIn e.cache.small item.key ≠ none := by
      rw [hvalue]
      exact some_ne_none _
    have hnotMain := hinv.smallMain item.key hsome
    by_cases hfreq : item.freq > 1
    · -- the object moves to the main queue
      obtain ⟨hmain, hinserted⟩ := hinv.main.valueIn_insertFront item hnotMain
      have hqueues : QueuesWf (e.cache.insertIntoMain item) := ⟨hinv.small, hmain, hinv.ghost⟩
      by_cases hfull : (e.cache.insertIntoMain item).main.size ≥
          9 / 10 * (e.cache.insertIntoMain item).capacityBytes
      · obtain ⟨m, g, victims', hevict, hm, hg, hwithin, hlength, hevicts⟩ :=
          hqueues.evictFromMain hfreed e.victims
        refine ⟨_, ?_, h.moved hget hm hg hwithin hlength hevicts e.hasEvicted, hshorter⟩
        have hmove : moveToMain freedLength e item = some {
            cache := { e.cache.insertIntoMain item with main := m, ghost := g }
            victims := victims'
            hasEvicted := e.hasEvicted } := by
          rw [moveToMain, if_pos hfull, hevict]
          rfl
        simp only [smallPass, hback, some_bind, if_pos hfreq, hmove, pure_def]
        rfl
      · have hlength : e.cache.ghost.queue.toList.length ≤
            (e.cache.insertIntoMain item).main.queue.toList.length := by
          show _ ≤ (e.cache.main.queue.pushFront item).toList.length
          rw [toList_pushFront, List.length_cons]
          exact Nat.le_succ_of_le hinv.ghostLength
        refine ⟨_, ?_, h.moved hget hmain hinv.ghost (fun _ hk => hk) hlength
          (.inl ⟨rfl, fun _ => rfl⟩) e.hasEvicted, hshorter⟩
        have hmove : moveToMain freedLength e item =
            some { e with cache := e.cache.insertIntoMain item } := by
          rw [moveToMain, if_neg hfull]
        simp only [smallPass, hback, some_bind, if_pos hfreq, hmove, pure_def]
        rfl
    · -- the object is a victim and its key becomes a ghost
      have hnotGhost : e.cache.ghost.find item.key = none := by
        by_contra hghost
        exact hsome (hinv.ghostSmall item.key hghost)
      obtain ⟨g, hinsert, hg, hghosts, hlength⟩ :=
        hinv.toQueuesWf.insertIntoGhost hfreed hnotGhost
      obtain ⟨hsmall, hwithout⟩ := hinv.small.valueIn_eraseAt hget
      refine ⟨{
          cache := { e.cache with
            small := e.cache.small.eraseAt S3fifoItem.key getSizeForCapacity it item
            ghost := g }
          victims := insertNew e.victims item.key item.value
          hasEvicted := true }, ?_, ⟨⟨⟨hsmall, hinv.main, hg⟩, fun k hk => ?_, fun k hk => ?_,
        fun k hk => ?_, hlength⟩, ?_⟩, hshorter⟩
      · simp only [smallPass, hback, some_bind, if_neg hfreq, moveToGhost, hinsert, map_some,
          pure_def]
      · rw [hwithout k] at hk
        split at hk
        · exact absurd rfl hk
        · exact hinv.smallMain k hk
      · show valueIn (e.cache.small.eraseAt _ _ it item) k = none
        rw [hwithout k]
        split
        · rfl
        · next hne => exact hinv.ghostSmall k ((hghosts k hk).resolve_left hne)
      · rcases hghosts k hk with rfl | hold
        · exact hnotMain
        · exact hinv.ghostMain k hold
      · apply h.departed.remove item.key
        · rw [cached, hvalue, some_or]
        · intro k
          show (valueIn (e.cache.small.eraseAt _ _ it item) k).or (valueIn e.cache.main k) = _
          rw [hwithout k]
          split
          · next hk => rw [hk, hnotMain, or_none]
          · rfl

/-- An eviction from the small queue. -/
theorem Inv.evictFromSmall (h : Inv s) (hfreed : ReadsBack freedLength) :
    ∃ s' victims, s.evictFromSmall freedLength ∅ = some (s', victims) ∧ Inv s' ∧
      Departed s.cached s'.cached victims := by
  have hstart : SmallLoop s { cache := s, victims := ∅, hasEvicted := false } :=
    ⟨h, Departed.refl s.cached⟩
  obtain ⟨e, hloop, hend, -⟩ := whileLoop_spec
    (fun e : Eviction => e.cache.small.queue.toList.length)
    (fun _ => SmallLoop.pass hfreed) hstart (le_refl s.small.queue.toList.length)
  refine ⟨e.cache, e.victims, ?_, hend.inv, hend.departed⟩
  simp only [S3fifoCachePolicy.evictFromSmall, hloop, some_bind, pure_def,
    hend.inv.toQueuesWf.tryToFixDoublePrecisionIssue]

/-- An eviction evicts what it reports. -/
theorem Inv.evictNoGivenKey (h : Inv s) (hfreed : ReadsBack freedLength) :
    ∃ s' victims, s.evictNoGivenKey freedLength ∅ = some (s', victims) ∧ Inv s' ∧
      Departed s.cached s'.cached victims := by
  rw [S3fifoCachePolicy.evictNoGivenKey]
  split
  · exact h.evictFromSmall hfreed
  · obtain ⟨m, g, victims, hevict, hm, hg, hwithin, hlength, hevicts⟩ :=
      h.toQueuesWf.evictFromMain hfreed ∅
    refine ⟨_, victims, hevict, ⟨⟨h.small, hm, hg⟩, fun k hk => ?_, fun k hk => ?_,
      fun k hk => ?_, hlength⟩, ?_⟩
    · exact hevicts.valueIn_eq_none (h.smallMain k hk)
    · exact h.ghostSmall k (hwithin k hk)
    · exact hevicts.valueIn_eq_none (h.ghostMain k (hwithin k hk))
    · rcases hevicts with ⟨rfl, hsame⟩ | ⟨key, value, hvictim, hleft, rfl⟩
      · apply (Departed.refl s.cached).congr
        intro k
        rw [cached, cached, ← hsame k]
      · have hnotSmall : valueIn s.small key = none := by
          by_contra hsmall
          rw [h.smallMain key hsmall] at hvictim
          cases hvictim
        apply (Departed.refl s.cached).remove key
        · rw [cached, hnotSmall, none_or, hvictim]
        · intro k
          show (valueIn s.small k).or (valueIn m k) = _
          rw [hleft k]
          split
          · next hk => rw [hk, hnotSmall, or_none]
          · rfl

/-! ## Accesses and admission -/

theorem Inv.find_of_exists (h : Inv s) {isSmallCache : Bool}
    (hexists : s.exists? key = some (isSmallCache, it)) :
    ∃ item, (s.queueOf isSmallCache).queue.get it = some item ∧ item.key = key := by
  rw [exists?] at hexists
  cases hsmall : s.small.keyLookup.lookup key with
  | some it' =>
    rw [hsmall] at hexists
    cases hexists
    exact (h.small.indexes key it).1 hsmall
  | none =>
    rw [hsmall] at hexists
    obtain ⟨it', hmain, heq⟩ := map_eq_some_iff.1 hexists
    cases heq
    exact (h.main.indexes key it).1 hmain

theorem Inv.cached_of_exists_none (h : Inv s) (hexists : s.exists? key = none) :
    s.small.find key = none ∧ s.main.find key = none := by
  rw [exists?] at hexists
  cases hsmall : s.small.keyLookup.lookup key with
  | some it =>
    rw [hsmall] at hexists
    cases hexists
  | none =>
    rw [hsmall] at hexists
    exact ⟨h.small.find_eq_none_iff.2 hsmall,
      h.main.find_eq_none_iff.2 (map_eq_none_iff.1 hexists)⟩

theorem wfItems_queueOf (h : QueuesWf s) (isSmallCache : Bool) :
    WfItems (s.queueOf isSmallCache) := by
  cases isSmallCache with
  | true => exact h.small
  | false => exact h.main

theorem key_incrFreq (item : S3fifoItem) : item.incrFreq.key = item.key := by
  rw [incrFreq]
  split
  · rfl
  · rfl

theorem getSizeForCapacity_hit (item : S3fifoItem) (value : Value) :
    S3fifoItem.getSizeForCapacity { item.incrFreq with value := value } =
      item.getSizeForCapacity - item.value.valuesize + value.valuesize := by
  rw [S3fifoItem.getSizeForCapacity, S3fifoItem.getSizeForCapacity, key_incrFreq]
  ring

/-- A queue exchanged for one with the same keys keeps the invariant. -/
theorem Inv.setQueue (h : Inv s) {isSmallCache : Bool} (hq : WfItems q)
    (hkeys : ∀ k, valueIn q k = none ↔ valueIn (s.queueOf isSmallCache) k = none)
    (hlength : q.queue.toList.length = (s.queueOf isSmallCache).queue.toList.length) :
    Inv (s.setQueue isSmallCache q) := by
  cases isSmallCache with
  | true =>
    exact ⟨⟨hq, h.main, h.ghost⟩, fun k hk => h.smallMain k fun hnone => hk ((hkeys k).2 hnone),
      fun k hk => (hkeys k).2 (h.ghostSmall k hk), h.ghostMain, h.ghostLength⟩
  | false =>
    exact ⟨⟨h.small, hq, h.ghost⟩, fun k hk => (hkeys k).2 (h.smallMain k hk), h.ghostSmall,
      fun k hk => (hkeys k).2 (h.ghostMain k hk), h.ghostLength.trans hlength.symm.le⟩

/-- A key that leaves the ghost queue keeps the invariant. -/
theorem Inv.removeFromGhost (h : Inv s) (key : Key) :
    ∃ s', s.removeFromGhost key = some s' ∧ Inv s' := by
  obtain ⟨g, hremove, hg, -, hwithin, hlength⟩ := h.toQueuesWf.removeFromGhost key
  exact ⟨_, hremove, ⟨h.small, h.main, hg⟩, h.smallMain,
    fun k hk => h.ghostSmall k (hwithin k hk), fun k hk => h.ghostMain k (hwithin k hk),
    hlength.trans h.ghostLength⟩

/-- An access does not fail. -/
theorem Inv.access (h : Inv s) (key : Key) (newValue : Option Value) :
    ∃ s' value, s.access key newValue = some (s', value) ∧ Inv s' := by
  rw [S3fifoCachePolicy.access]
  cases hexists : s.exists? key with
  | none => exact ⟨s, none, rfl, h⟩
  | some found =>
    obtain ⟨isSmallCache, it⟩ := found
    obtain ⟨item, hget, hkey⟩ := h.find_of_exists hexists
    have hq := wfItems_queueOf h.toQueuesWf isSmallCache
    have hsize : (s.queueOf isSmallCache).size - item.value.valuesize +
        (newValue.getD item.value).valuesize = (s.queueOf isSmallCache).size -
          item.getSizeForCapacity + S3fifoItem.getSizeForCapacity
            { item.incrFreq with value := newValue.getD item.value } := by
      rw [getSizeForCapacity_hit]
      ring
    obtain ⟨hwf, hfind⟩ := hq.set (b := { item.incrFreq with value := newValue.getD item.value })
      hget (key_incrFreq item) hsize
    have hset := h.setQueue hwf (fun k => by
      rw [valueIn, hfind, valueIn]
      split
      · next hk =>
        rw [hk, hq.find_of_get hget]
        exact iff_of_false (some_ne_none _) (some_ne_none _)
      · rfl) (length_toList_set hget _)
    obtain ⟨s', hremove, hinv⟩ := hset.removeFromGhost key
    refine ⟨s', some item.value, ?_, hinv⟩
    simp only [hget, some_bind, require_bind hkey, hremove,
      hinv.toQueuesWf.tryToFixDoublePrecisionIssue, pure_def]

/-- A new object enters the main queue if its key is a ghost, else the small queue. -/
theorem Inv.admitObject (h : Inv s) (key : Key) (value : Value) :
    ∃ s', s.admitObject key value = some s' ∧ Inv s' := by
  rw [S3fifoCachePolicy.admitObject]
  cases hexists : s.exists? key with
  | some found => exact ⟨s, rfl, h⟩
  | none =>
    obtain ⟨hsmall, hmain⟩ := h.cached_of_exists_none hexists
    have hnotSmall := valueIn_eq_none_iff.2 hsmall
    have hnotMain := valueIn_eq_none_iff.2 hmain
    dsimp only
    split
    · obtain ⟨hwf, hinserted⟩ :=
        h.main.valueIn_insertFront { key := key, value := value } hnotMain
      have hqueues : QueuesWf (s.insertIntoMain { key := key, value := value }) :=
        ⟨h.small, hwf, h.ghost⟩
      obtain ⟨g, hremove, hg, hgone, hwithin, hlength⟩ := hqueues.removeFromGhost key
      refine ⟨_, hremove, ⟨h.small, hwf, hg⟩, fun k hk => ?_,
        fun k hk => h.ghostSmall k (hwithin k hk), fun k hk => ?_, ?_⟩
      · refine (hinserted k).trans ?_
        rw [if_neg, h.smallMain k hk]
        rintro rfl
        exact hk hnotSmall
      · refine (hinserted k).trans ?_
        rw [if_neg, h.ghostMain k (hwithin k hk)]
        rintro rfl
        exact hk hgone
      · show _ ≤ (s.main.queue.pushFront _).toList.length
        rw [toList_pushFront, List.length_cons]
        exact Nat.le_succ_of_le (hlength.trans h.ghostLength)
    · obtain ⟨hwf, hinserted⟩ :=
        h.small.valueIn_insertFront { key := key, value := value } hnotSmall
      have hqueues : QueuesWf (s.insertIntoSmall { key := key, value := value }) :=
        ⟨hwf, h.main, h.ghost⟩
      obtain ⟨g, hremove, hg, hgone, hwithin, hlength⟩ := hqueues.removeFromGhost key
      refine ⟨_, hremove, ⟨hwf, h.main, hg⟩, fun k hk => ?_, fun k hk => ?_,
        fun k hk => h.ghostMain k (hwithin k hk), hlength.trans h.ghostLength⟩
      · by_cases hkk : k = key
        · rw [hkk]
          exact hnotMain
        · apply h.smallMain k
          have hvalue := hinserted k
          rw [if_neg hkk] at hvalue
          exact fun hnone => hk (hvalue.trans hnone)
      · refine (hinserted k).trans ?_
        rw [if_neg, h.ghostSmall k (hwithin k hk)]
        rintro rfl
        exact hk hgone

/-! ## Runs -/

theorem Wf.find_ne_none_of_mem {α : Type} {keyOf : α → Key} {bytes : α → ℚ} {q : S3fifoQueue α}
    (h : Wf keyOf bytes q) (hk : k ∈ q.queue.toList.map keyOf) : q.find k ≠ none := by
  obtain ⟨a, ha, rfl⟩ := List.mem_map.1 hk
  obtain ⟨it, hget⟩ := mem_toList_iff.1 ha
  rw [h.find_of_get hget]
  exact some_ne_none a

/-- No key is in the queues twice. -/
theorem Inv.nodup_keys (h : Inv s) : (s.small.queue.toList.map S3fifoItem.key ++
    s.main.queue.toList.map S3fifoItem.key ++ s.ghost.queue.toList).Nodup := by
  have hghosts : s.ghost.queue.toList = s.ghost.queue.toList.map id := (List.map_id _).symm
  have hsmall : ∀ k ∈ s.small.queue.toList.map key, valueIn s.small k ≠ none :=
    fun k hk hnone => h.small.find_ne_none_of_mem hk (valueIn_eq_none_iff.1 hnone)
  have hmain : ∀ k ∈ s.main.queue.toList.map key, valueIn s.main k ≠ none :=
    fun k hk hnone => h.main.find_ne_none_of_mem hk (valueIn_eq_none_iff.1 hnone)
  rw [hghosts]
  refine List.Nodup.append (List.Nodup.append ?_ ?_ ?_) ?_ ?_
  · exact nodupKeys_of_indexes h.small.indexes
  · exact nodupKeys_of_indexes h.main.indexes
  · exact fun k hk hk' => hmain k hk' (h.smallMain k (hsmall k hk))
  · exact nodupKeys_of_indexes h.ghost.indexes
  · intro k hk hghost
    have hfound := h.ghost.find_ne_none_of_mem hghost
    rcases List.mem_append.1 hk with hk | hk
    · exact hsmall k hk (h.ghostSmall k hfound)
    · exact hmain k hk (h.ghostMain k hfound)

theorem inv_create (capacityBytes : Nat) : Inv (create capacityBytes) where
  small := wf_empty
  main := wf_empty
  ghost := wf_empty
  smallMain _ hk := absurd rfl hk
  ghostSmall _ hk := absurd rfl hk
  ghostMain _ hk := absurd rfl hk
  ghostLength := le_refl 0

/-- An operation does not fail and keeps the invariant. -/
theorem Inv.step (h : Inv s) (hfreed : ReadsBack freedLength) (a : Action) :
    ∃ s' out, step freedLength s a = some (s', out) ∧ Inv s' := by
  cases a with
  | get key =>
    obtain ⟨s', value, haccess, hinv⟩ := h.access key none
    exact ⟨s', .value value, by rw [S3fifo.step, S3fifoCachePolicy.get, haccess]; rfl, hinv⟩
  | update key value =>
    obtain ⟨s', old, haccess, hinv⟩ := h.access key (some value)
    exact ⟨s', .flag old.isSome, by rw [S3fifo.step, S3fifoCachePolicy.update, haccess]; rfl,
      hinv⟩
  | admitObject key value =>
    obtain ⟨s', hadmitted, hinv⟩ := h.admitObject key value
    exact ⟨s', .void, by rw [S3fifo.step, hadmitted]; rfl, hinv⟩
  | evictNoGivenKey =>
    obtain ⟨s', victims, hevict, hinv, -⟩ := h.evictNoGivenKey hfreed
    exact ⟨s', .victims victims, by rw [S3fifo.step, hevict]; rfl, hinv⟩

/-- As long as the memory of an erased ghost still holds the length of its key, the representation
holds in every reached state, no operation fails, and an eviction reports what it evicts. -/
theorem queues_match (hfreed : ReadsBack freedLength) (capacityBytes : Nat)
    (tr : List (Action × Output)) (s : S3fifoCachePolicy)
    (h : Runs (step freedLength) anyAction (create capacityBytes) tr s) :
    Correct freedLength s := by
  have hinv : Inv s := by
    refine h.invariant (inv_create capacityBytes) fun {t a t' out} hinv _ hstep => ?_
    obtain ⟨s', out', hstep', hinv'⟩ := hinv.step hfreed a
    rw [hstep', Option.some.injEq, Prod.mk.injEq] at hstep
    exact hstep.1 ▸ hinv'
  refine ⟨⟨hinv.small, hinv.main, hinv.ghost, hinv.nodup_keys, hinv.ghostLength⟩, fun a => ?_, ?_⟩
  · obtain ⟨s', out, hstep, -⟩ := hinv.step hfreed a
    rw [hstep, Option.isSome_some]
  · obtain ⟨s', victims, hevict, -, hdeparted⟩ := hinv.evictNoGivenKey hfreed
    exact ⟨s', victims, hevict, fun key value => hdeparted.lookup_iff⟩

/-! ## Concrete runs -/

def firstKey : Key := ⟨[7]⟩
def secondKey : Key := ⟨[8]⟩

/-- An object enters the small queue and leaves it as a ghost, for which there is no room. -/
def dropGhost : List Action := [.admitObject firstKey (.ofSize 5), .evictNoGivenKey]

/-- The first object is hit twice, so that an eviction moves it to the main queue and evicts the
second. -/
def moveAndEvict : List Action :=
  [.admitObject firstKey (.ofSize 5), .get firstKey, .get firstKey,
    .admitObject secondKey (.ofSize 5), .evictNoGivenKey]

/-- Where the memory of the erased ghost reads as `0`, the counter keeps the bytes of its key. -/
theorem ghost_counter_wrong : ¬ ∀ (freedLength : FreedLength) (capacityBytes : Nat) tr s,
    Runs (step freedLength) anyAction (create capacityBytes) tr s → Correct freedLength s := by
  intro h
  have hexec : (exec (step fun _ => some 0) anyAction (create 100) dropGhost).any (fun s =>
      decide (s.ghost.size ≠
        (s.ghost.queue.toList.map ghostBytes).sum + (tableBytes s.ghost.keyLookup : ℚ))) =
          true := by
    decide +kernel
  obtain ⟨tr, s, hrun, -, hwrong⟩ := exists_runs_of_any hexec
  exact of_decide_eq_true hwrong (h _ 100 tr s hrun).represents.ghost.size

/-- The length of the key of the ghost that is dropped next. -/
def keptLength : FreedLength :=
  fun s => s.ghost.queue.back.map fun tail => tail.2.getKeyLength

theorem readsBack_keptLength : ReadsBack keptLength := by
  intro s it key _ hback
  rw [keptLength, hback, map_some]

/-- The object that was hit is in the main queue, the other is evicted and a ghost. -/
theorem queues_match_moveAndEvict : ∃ tr s,
    Runs (step keptLength) anyAction (create 100) tr s ∧
      (valueIn s.main firstKey).isSome = true ∧ s.ghost.queue.toList = [secondKey] ∧
        Correct keptLength s := by
  have hexec : (exec (step keptLength) anyAction (create 100) moveAndEvict).any (fun s =>
      decide ((valueIn s.main firstKey).isSome = true ∧ s.ghost.queue.toList = [secondKey])) =
        true := by
    decide +kernel
  obtain ⟨tr, s, hrun, -, hend⟩ := exists_runs_of_any hexec
  obtain ⟨hmain, hghosts⟩ := of_decide_eq_true hend
  exact ⟨tr, s, hrun, hmain, hghosts, queues_match readsBack_keptLength 100 tr s hrun⟩

end Covered.Cache.S3fifo
