import Covered.Cache.SieveCachePolicy

/-!
# The hand and the size of SIEVE

`Inv` is the invariant: the lookup table finds the objects of the queue, the size is the sum of all
bytes, and the hand is the end or denotes an object. A victim never stays under the hand, which is
why an eviction keeps the hand valid; `Inv.getVictimKey` says what a sweep does, from the rule for
sweeps in the library.

`hand_sound_of_runs` is the theorem: in every run in which no updated object wraps around 32 bits,
every state is sound, and an eviction never fails. `size_lost` is a run with an object that wraps
around, after which the size is not the sum.
-/

set_option autoImplicit false

namespace Covered.Cache.Sieve

open Common Lib Lib.Checked Lib.Execution SieveCachePolicy LinkedList SieveItem

variable {s t : SieveCachePolicy} {key : Key} {it : Nat} {item : SieveItem} {value : Value}

/-! ## The invariant -/

/-- The hand is the end of the queue, or denotes an item. -/
def HandValid (s : SieveCachePolicy) : Prop :=
  ∀ it, s.handIter = some it → ∃ item, s.sieveQueue.get it = some item

structure Inv (s : SieveCachePolicy) : Prop where
  indexed : IndexedList SieveItem.key SieveItem.getSizeForCapacity lookupBytes
    s.sieveQueue s.keyLookup s.size
  hand : HandValid s
  limit : s.size < uint64Limit

theorem inv_empty : Inv {} where
  indexed := IndexedList.empty
  hand := fun it hit => by cases hit
  limit := show 0 < uint64Limit by decide

/-- The item that the table finds for a key. -/
theorem itemAt_spec (hitem : s.itemAt key it = some item) :
    s.sieveQueue.get it = some item ∧ item.key = key := by
  simp only [SieveCachePolicy.itemAt, bind_eq_some_iff, require_eq_some_iff,
    pure_eq_some_iff] at hitem
  obtain ⟨item', hget, -, hkey, rfl⟩ := hitem
  exact ⟨hget, hkey⟩

theorem Inv.exists_itemAt (h : Inv s) (hlookup : s.keyLookup.lookup key = some it) :
    ∃ item, s.itemAt key it = some item := by
  obtain ⟨item, hget, hkey⟩ := h.indexed.get_of_lookup hlookup
  refine ⟨item, ?_⟩
  rw [SieveCachePolicy.itemAt, hget, some_bind, require_bind hkey]
  rfl

/-- An item is replaced by one with the same key. -/
theorem Inv.set (h : Inv s) (hget : s.sieveQueue.get it = some item) (item' : SieveItem)
    (hkey : item'.key = item.key) {size : Nat} (hlimit : size < uint64Limit)
    (hsize : size = s.size - item.getSizeForCapacity + item'.getSizeForCapacity) :
    Inv { s with sieveQueue := s.sieveQueue.set it item', size := size } where
  indexed := hsize ▸ h.indexed.set hget hkey
  hand := by
    intro it' hit'
    obtain ⟨old, hold⟩ := h.hand it' hit'
    dsimp only
    rw [get_set hget]
    by_cases heq : it' = it
    · exact ⟨item', if_pos heq⟩
    · exact ⟨old, (if_neg heq).trans hold⟩
  limit := hlimit

/-! ## Accesses and admissions -/

theorem Inv.get {out : Option Value} (h : Inv s) (hget : s.get key = some (t, out)) : Inv t := by
  rw [SieveCachePolicy.get] at hget
  split at hget
  · cases hget
    exact h
  · next it hlookup =>
    simp only [bind_eq_some_iff, pure_eq_some_iff, Prod.mk.injEq] at hget
    obtain ⟨item, hitem, rfl, -⟩ := hget
    obtain ⟨hat, hkey⟩ := itemAt_spec hitem
    have hle := h.indexed.le_size hat
    have hsame : item.setVisited.getSizeForCapacity = item.getSizeForCapacity := rfl
    exact h.set hat item.setVisited rfl h.limit (by rw [hsame]; omega)

theorem getSizeForCapacity_eq (h : item.key.getKeyLength + item.value.valuesize < 2 ^ 32) :
    item.getSizeForCapacity = item.key.getKeyLength + item.value.valuesize + 1 := by
  rw [SieveItem.getSizeForCapacity, objectSize, Nat.mod_eq_of_lt h]

theorem Inv.update {out : Bool} (h : Inv s) (hmeets : Meets s (.update key value))
    (hupdate : s.update key value = some (t, out)) : Inv t := by
  rw [SieveCachePolicy.update] at hupdate
  split at hupdate
  · cases hupdate
    exact h
  · next it hlookup =>
    simp only [bind_eq_some_iff, pure_eq_some_iff, Prod.mk.injEq] at hupdate
    obtain ⟨item, hitem, size, hsize, rfl, -⟩ := hupdate
    obtain ⟨hat, rfl⟩ := itemAt_spec hitem
    obtain ⟨hold, hnew⟩ := hmeets item (h.indexed.indexes.found_of_get hat)
    have hle := h.indexed.le_size hat
    have hbefore := getSizeForCapacity_eq hold
    have hafter : (item.setVisited.setValue value).getSizeForCapacity =
        item.key.getKeyLength + value.valuesize + 1 := getSizeForCapacity_eq hnew
    refine h.set hat (item.setVisited.setValue value) rfl (uint64Add_lt hsize) ?_
    rw [uint64Add_eq_some hsize, uint64Minus_eq h.limit (by omega), hafter]
    omega

theorem Inv.admitObject (h : Inv s) (hnew : s.admitObject key value = some t) : Inv t := by
  rw [SieveCachePolicy.admitObject] at hnew
  split at hnew
  · cases hnew
    exact h
  · next hlookup =>
    simp only [bind_eq_some_iff, pure_eq_some_iff] at hnew
    obtain ⟨size, hsize, size', hsize', rfl⟩ := hnew
    refine ⟨?_, ?_, uint64Add_lt hsize'⟩
    · dsimp only
      rw [uint64Add_eq_some hsize', uint64Add_eq_some hsize]
      exact h.indexed.pushFront (a := ⟨key, value, false⟩) hlookup
    · intro it hit
      obtain ⟨old, hold⟩ := h.hand it hit
      dsimp only
      rw [get_pushFront]
      by_cases heq : it = s.sieveQueue.next
      · exact ⟨_, if_pos heq⟩
      · exact ⟨old, (if_neg heq).trans hold⟩

/-! ## Evictions -/

/-- The victim of a sweep: the first item that is not visited on the walk from the start, or the
start itself if all are visited. The items before it are passed, and only their flags are cleared.
-/
def IsVictim (s t : SieveCachePolicy) (key : Key) : Prop :=
  ∃ cur passed rest stop item, s.start = some cur ∧ s.sieveQueue.walk cur = passed ++ rest ∧
    (∀ it ∈ passed, (s.sieveQueue.get it).any SieveItem.isVisited = true) ∧
    (∀ it ∈ rest.head?, (s.sieveQueue.get it).any SieveItem.isVisited = false) ∧
    (rest ++ passed).head? = some stop ∧ s.sieveQueue.get stop = some item ∧ item.key = key ∧
    LinkedList.Cleared SieveItem.resetVisited passed s.sieveQueue t.sieveQueue ∧
    t.keyLookup = s.keyLookup ∧ t.size = s.size

/-- A sweep starts at an item. -/
theorem Inv.exists_start (h : Inv s) (hne : s.sieveQueue.toList ≠ []) :
    ∃ cur, s.start = some cur ∧ cur ∈ s.sieveQueue.iterators := by
  rw [start]
  cases hhand : s.handIter with
  | none => exact prev_end hne
  | some it => exact ⟨it, rfl, mem_iterators_iff.2 (h.hand it hhand)⟩

/-- The flags do not count. -/
theorem Inv.sweep {queue : LinkedList SieveItem} {cur stop : Nat} (h : Inv s)
    (hsweep : sweep isVisited resetVisited s.sieveQueue cur =
      some (queue, stop)) :
    IndexedList SieveItem.key getSizeForCapacity lookupBytes queue s.keyLookup
      s.size := by
  refine sweep_invariant (P := fun queue => IndexedList key
    getSizeForCapacity lookupBytes queue s.keyLookup s.size) ?_ h.indexed hsweep
  intro l it item hl hget
  have hset := hl.set hget (b := item.resetVisited) rfl
  have hle := hl.le_size hget
  have hsame : item.resetVisited.getSizeForCapacity = item.getSizeForCapacity := rfl
  have hsize : s.size - item.getSizeForCapacity + item.resetVisited.getSizeForCapacity =
      s.size := by
    rw [hsame]
    omega
  rwa [hsize] at hset

/-- The search for a victim ends, and leaves the hand at another item or at the end. -/
theorem Inv.getVictimKey (h : Inv s) (hne : s.sieveQueue.toList ≠ []) :
    ∃ t key, s.getVictimKey = some (t, some key) ∧ IsVictim s t key ∧ Inv t ∧
      ∃ it, t.keyLookup.lookup key = some it ∧ t.handIter ≠ some it := by
  obtain ⟨cur, hstart, hcur⟩ := h.exists_start hne
  obtain ⟨passed, rest, queue, stop, hwalk, hpassed, hrest, hstop, hsweep, hcleared⟩ :=
    sweep_spec isVisited resetVisited (fun _ => rfl) hcur
  have hindexed := h.sweep hsweep
  have hmem : stop ∈ s.sieveQueue.iterators := by
    have hperm := perm_walk hcur
    rw [hwalk] at hperm
    exact (List.perm_append_comm.trans hperm).subset (List.mem_of_head? hstop)
  obtain ⟨item, hitem⟩ := mem_iterators_iff.1 hmem
  obtain ⟨item', hitem'⟩ := mem_iterators_iff.1 (hcleared.iterators ▸ hmem)
  have hkey : item'.key = item.key := by
    have hget := hcleared.get stop
    rw [hitem, hitem', Option.map_some, Option.some.injEq] at hget
    rw [hget]
    split
    · rfl
    · rfl
  refine ⟨{ s with
      sieveQueue := queue
      handIter := if queue.begin = some stop then none else queue.prev (some stop) },
    item'.key, ?_, ?_, ⟨hindexed, ?_, h.limit⟩, stop, hindexed.lookup_of_get hitem', ?_⟩
  · rw [SieveCachePolicy.getVictimKey, if_pos (List.length_pos_iff.2 hne), hstart, some_bind,
      hsweep]
    simp only [some_bind, hitem']
    rfl
  · exact ⟨cur, passed, rest, stop, item, hstart, hwalk, hpassed, hrest, hstop, hitem, hkey.symm,
      hcleared, rfl, rfl⟩
  · intro it hit
    dsimp only at hit
    split at hit
    · cases hit
    · exact mem_iterators_iff.1 (prev_some hit).1
  · intro hhand
    dsimp only at hhand
    split at hhand
    · cases hhand
    · exact (prev_some hhand).2 rfl

/-- An eviction of a key that the hand does not denote. -/
theorem Inv.evictWithGivenKey (h : Inv s) (hlookup : s.keyLookup.lookup key = some it)
    (hhand : s.handIter ≠ some it) :
    ∃ t item, s.evictWithGivenKey key = some (t, some item.value) ∧
      s.sieveQueue.get it = some item ∧ Inv t := by
  obtain ⟨item, hitem⟩ := h.exists_itemAt hlookup
  obtain ⟨hget, rfl⟩ := itemAt_spec hitem
  have hle := h.indexed.le_size hget
  have hlimit := h.limit
  have hsize : uint64Minus (uint64Minus s.size (lookupBytes item.key)) item.getSizeForCapacity =
      s.size - (item.getSizeForCapacity + lookupBytes item.key) := by
    rw [uint64Minus_eq (b := lookupBytes item.key) hlimit (by omega),
      uint64Minus_eq (by omega) (by omega)]
    omega
  have hevict : s.evictWithGivenKey item.key = some ({ s with
      sieveQueue := s.sieveQueue.erase it
      keyLookup := s.keyLookup.erase item.key
      size := s.size - (item.getSizeForCapacity + lookupBytes item.key) }, some item.value) := by
    rw [SieveCachePolicy.evictWithGivenKey, hlookup]
    simp only [hitem, hsize, some_bind]
    rfl
  refine ⟨_, item, hevict, hget, h.indexed.erase hget, fun it' hit' => ?_, ?_⟩
  · obtain ⟨old, hold⟩ := h.hand it' hit'
    have hne : it' ≠ it := fun heq => hhand (heq ▸ hit')
    exact ⟨old, (get_erase).trans ((if_neg hne).trans hold)⟩
  · exact (Nat.sub_le _ _).trans_lt hlimit

theorem getVictimKey_empty (hnil : s.sieveQueue.toList = []) :
    s.getVictimKey = some (s, none) := by
  rw [SieveCachePolicy.getVictimKey, hnil]
  rfl

/-- An eviction never fails. -/
theorem Inv.evictVictim (h : Inv s) : ∃ t out, evictVictim s = some (t, out) ∧ Inv t := by
  by_cases hnil : s.sieveQueue.toList = []
  · refine ⟨s, none, ?_, h⟩
    rw [Sieve.evictVictim, getVictimKey_empty hnil]
    rfl
  · obtain ⟨u, key, hvictim, -, hu, it, hlookup, hhand⟩ := h.getVictimKey hnil
    obtain ⟨t, item, hevict, -, ht⟩ := hu.evictWithGivenKey hlookup hhand
    refine ⟨t, some (key, some item.value), ?_, ht⟩
    rw [Sieve.evictVictim, hvictim]
    simp only [some_bind, hevict]
    rfl

/-! ## Every run -/

theorem Inv.step {a : Action} {out : Output} (h : Inv s) (hmeets : Meets s a)
    (hstep : step s a = some (t, out)) : Inv t := by
  cases a with
  | get key =>
    obtain ⟨r, hget, heq⟩ := Option.map_eq_some_iff.1 hstep
    cases heq
    exact h.get hget
  | update key value =>
    obtain ⟨r, hupdate, heq⟩ := Option.map_eq_some_iff.1 hstep
    cases heq
    exact h.update hmeets hupdate
  | admitObject key value =>
    obtain ⟨r, hnew, heq⟩ := Option.map_eq_some_iff.1 hstep
    cases heq
    exact h.admitObject hnew
  | evict =>
    obtain ⟨r, hevict, heq⟩ := Option.map_eq_some_iff.1 hstep
    cases heq
    obtain ⟨t, out, hsome, ht⟩ := h.evictVictim
    rw [hevict, Option.some.injEq] at hsome
    rw [hsome]
    exact ht

/-- What holds in a state: the hand is valid; a victim is found in every queue that is not empty, it
is the first one that is not visited, and the hand is valid after it; the size is the sum of the
bytes; an eviction does not fail. -/
structure Sound (s : SieveCachePolicy) : Prop where
  hand : HandValid s
  victim : s.sieveQueue.toList ≠ [] →
    ∃ t key, s.getVictimKey = some (t, some key) ∧ IsVictim s t key ∧ HandValid t
  noVictim : s.sieveQueue.toList = [] → s.getVictimKey = some (s, none)
  size : s.getSizeForCapacity = (s.sieveQueue.toList.map SieveItem.getSizeForCapacity).sum +
    s.keyLookup.sumBy fun key _ => lookupBytes key
  evicts : ∃ t out, evictVictim s = some (t, out)

theorem hand_sound_of_runs {tr : List (Action × Output)}
    (hrun : Runs step Meets {} tr s) : Sound s := by
  have hinv : Inv s := by
    refine hrun.invariant (P := Inv) inv_empty ?_
    intro t a t' b hinv hmeets hstep
    exact hinv.step hmeets hstep
  constructor
  · exact hinv.hand
  · intro hne
    obtain ⟨t, key, hvictim, hspec, ht, -⟩ := hinv.getVictimKey hne
    exact ⟨t, key, hvictim, hspec, ht.hand⟩
  · exact getVictimKey_empty
  · exact hinv.indexed.size
  · obtain ⟨t, out, hevict, -⟩ := hinv.evictVictim
    exact ⟨t, out, hevict⟩

/-! ## Concrete runs -/

/-- Three objects, of which the oldest and the middle one are visited. The first eviction passes
both and takes the newest; the hand is at the end then. -/
theorem hand_sound_of_runs_evicted :
    ∃ tr s, Runs step Meets {} tr s ∧ Sound s ∧ s.handIter = none ∧
      s.sieveQueue.toList.map SieveItem.isVisited = [false, false] := by
  have hexec : (exec step Meets {} [.admitObject ⟨[1]⟩ (.ofSize 10),
      .admitObject ⟨[2]⟩ (.ofSize 20), .admitObject ⟨[3]⟩ (.ofSize 30),
      .get ⟨[1]⟩, .update ⟨[2]⟩ (.ofSize 5), .evict]).any
      (fun s => decide (s.handIter = none) &&
        decide (s.sieveQueue.toList.map SieveItem.isVisited = [false, false])) = true := by
    decide +kernel
  obtain ⟨tr, s, hrun, -, hs⟩ := exists_runs_of_any hexec
  rw [Bool.and_eq_true, decide_eq_true_eq, decide_eq_true_eq] at hs
  exact ⟨tr, s, hrun, hand_sound_of_runs hrun, hs.1, hs.2⟩

/-- An object of a key of one byte and a value of `2 ^ 32 - 1` bytes counts as one byte, and the
update to an empty value takes the bytes of the value away. The size is `0`, the bytes are `11`. -/
theorem size_lost :
    ∃ tr s, Runs step anyAction {} tr s ∧ s.getSizeForCapacity = 0 ∧
      (s.sieveQueue.toList.map SieveItem.getSizeForCapacity).sum +
        (s.keyLookup.sumBy fun key _ => lookupBytes key) = 11 := by
  have hexec : (exec step anyAction {} [.admitObject ⟨[1]⟩ (.ofSize (2 ^ 32 - 1)),
      .update ⟨[1]⟩ (.ofSize 0)]).any
      (fun s => decide (s.getSizeForCapacity = 0) &&
        decide ((s.sieveQueue.toList.map SieveItem.getSizeForCapacity).sum +
          (s.keyLookup.sumBy fun key _ => lookupBytes key) = 11)) = true := by
    decide +kernel
  obtain ⟨tr, s, hrun, -, hs⟩ := exists_runs_of_any hexec
  rw [Bool.and_eq_true, decide_eq_true_eq, decide_eq_true_eq] at hs
  exact ⟨tr, s, hrun, hs.1, hs.2⟩

end Covered.Cache.Sieve
