import Covered.Cache.SieveRepresentation
import Covered.Cache.SlruRepresentation
import Covered.Lib.EvictingMap

/-!
# What the policies hold

`values` is what a policy holds under each key, and `event` is what an operation with its answer is
for a map that forgets. A step of SIEVE or of SLRU does to the values what the event does to the map
(`does_step`), whatever the flags, the lists and the byte counters are; so every run of a policy is
one of such a map. A lookup table is enough for that, and the lemmas on `foundValue` say what an
operation on the containers and the table does to the values that the table leads to.
-/

set_option autoImplicit false

namespace Covered.Cache

open Common Lib Lib.Checked Lib.Execution Lib.EvictingMap Function

section Found

variable {α ρ : Type} {keyOf : α → Key} {table : UnorderedMap Key ρ} {get : ρ → Option α}
  {valueOf : α → Value} {key : Key} {r : ρ} {a b : α}

/-- The value that the table leads to. -/
def foundValue (valueOf : α → Value) (table : UnorderedMap Key ρ) (get : ρ → Option α)
    (key : Key) : Option Value :=
  (found table get key).map valueOf

theorem foundValue_of_get (h : Indexes keyOf table get) (hget : get r = some a) :
    foundValue valueOf table get (keyOf a) = some (valueOf a) := by
  rw [foundValue, h.found_of_get hget, Option.map_some]

theorem foundValue_of_lookup (h : table.lookup key = none) :
    foundValue valueOf table get key = none := by
  rw [foundValue, found, h]
  rfl

/-- An element is exchanged for one with the same key and value. -/
theorem foundValue_touch (h : Indexes keyOf table get) (hget : get r = some a)
    (hvalue : valueOf b = valueOf a) :
    update (foundValue valueOf table get) (keyOf a) (some (valueOf b)) =
      foundValue valueOf table get := by
  have hfound : foundValue valueOf table get (keyOf a) = _ := foundValue_of_get h hget
  rw [hvalue, ← hfound, update_eq_self]

theorem exists_of_lookup (h : Indexes keyOf table get) (hlookup : table.lookup key = some r) :
    ∃ value, foundValue valueOf table get key = some value := by
  obtain ⟨a, hget, rfl⟩ := (h key r).1 hlookup
  exact ⟨valueOf a, foundValue_of_get h hget⟩

variable [DecidableEq ρ]

theorem foundValue_set (h : Indexes keyOf table get) (hget : get r = some a) :
    foundValue valueOf table (update get r (some b)) =
      update (foundValue valueOf table get) (keyOf a) (some (valueOf b)) := by
  funext k
  rw [foundValue, h.found_set hget, update_apply]
  exact apply_ite (Option.map valueOf) ..

theorem foundValue_insert (a : α) (h : Indexes keyOf table get) (hunused : get r = none) :
    foundValue valueOf (table.insert (keyOf a) r) (update get r (some a)) =
      update (foundValue valueOf table get) (keyOf a) (some (valueOf a)) := by
  funext k
  rw [foundValue, h.found_insert hunused, update_apply]
  exact apply_ite (Option.map valueOf) ..

theorem foundValue_erase (h : Indexes keyOf table get) (hget : get r = some a) :
    foundValue valueOf (table.erase (keyOf a)) (update get r none) =
      update (foundValue valueOf table get) (keyOf a) none := by
  funext k
  rw [foundValue, h.found_erase hget, update_apply]
  exact apply_ite (Option.map valueOf) ..

end Found

namespace Sieve

open SieveCachePolicy LinkedList

def values (s : SieveCachePolicy) : Key → Option Value :=
  foundValue SieveItem.value s.keyLookup s.sieveQueue.get

def event : Action × Output → Event Key Value
  | (.get key, .value value) => .read key value
  | (.update key value, .updated isLocalCached) => .update key value isLocalCached
  | (.admitObject key value, _) => .insert key value
  | (.evict, .evicted victim) => .evict victim
  | _ => .other

def Indexed (s : SieveCachePolicy) : Prop :=
  Indexes SieveItem.key s.keyLookup s.sieveQueue.get

variable {s t : SieveCachePolicy} {a : Action} {out : Output} {key : Key} {value : Value}

/-- The search for a victim only clears flags. It finds a cached key, unless nothing is cached. -/
theorem values_getVictimKey {victim : Option Key} (h : Indexed s)
    (hvictim : s.getVictimKey = some (t, victim)) : Indexed t ∧ values t = values s ∧
      (victim = none → ∀ key, values s key = none) ∧
      ∀ key, victim = some key → t.keyLookup.lookup key ≠ none := by
  rw [SieveCachePolicy.getVictimKey] at hvictim
  split at hvictim
  · simp only [bind_eq_some_iff, pure_eq_some_iff, Prod.mk.injEq] at hvictim
    obtain ⟨cur, -, ⟨queue, stop⟩, hsweep, item, hitem, rfl, rfl⟩ := hvictim
    -- a pass of the hand exchanges an item for one with the same key and value
    have hkept : Indexed { s with sieveQueue := queue } ∧
        values { s with sieveQueue := queue } = values s := by
      refine sweep_invariant (P := fun queue => Indexed { s with sieveQueue := queue } ∧
        values { s with sieveQueue := queue } = values s) ?_ ⟨h, rfl⟩ hsweep
      rintro queue it item ⟨hindexed, hvalues⟩ hget
      simp only [Indexed, values, get_set_eq hget]
      refine ⟨hindexed.set hget rfl, ((foundValue_set hindexed hget).trans ?_).trans hvalues⟩
      exact foundValue_touch hindexed hget rfl
    refine ⟨hkept.1, hkept.2, fun hnone => absurd hnone (Option.some_ne_none _), fun key hkey => ?_⟩
    cases hkey
    -- the item under the hand is in the queue, so the table leads to it
    have hlookup : s.keyLookup.lookup item.key = some stop :=
      (hkept.1 item.key stop).2 ⟨item, hitem, rfl⟩
    exact ne_of_eq_of_ne hlookup (Option.some_ne_none _)
  · next hempty =>
    cases hvictim
    refine ⟨h, rfl, fun _ key => ?_, fun key hkey => by cases hkey⟩
    cases hlookup : s.keyLookup.lookup key with
    | none => exact foundValue_of_lookup hlookup
    | some it =>
      obtain ⟨item, hget, -⟩ := (h key it).1 hlookup
      exact absurd (List.length_pos_of_mem (mem_toList_iff.2 ⟨it, hget⟩)) hempty

theorem does_step (h : Indexed s) (hstep : step s a = some (t, out)) :
    Indexed t ∧ Does (values s) (event (a, out)) (values t) := by
  cases a with
  | get key =>
    obtain ⟨r, hget, heq⟩ := Option.map_eq_some_iff.1 hstep
    cases heq
    rw [SieveCachePolicy.get] at hget
    split at hget
    · next hlookup =>
      cases hget
      exact ⟨h, does_read (foundValue_of_lookup hlookup) rfl⟩
    · next it hlookup =>
      simp only [bind_eq_some_iff, pure_eq_some_iff] at hget
      obtain ⟨item, hitem, rfl⟩ := hget
      obtain ⟨hat, rfl⟩ := itemAt_spec hitem
      simp only [Indexed, values, get_set_eq hat]
      refine ⟨h.set hat rfl, does_read (foundValue_of_get h hat) ?_⟩
      exact (foundValue_set h hat).trans (foundValue_touch h hat rfl)
  | update key value =>
    obtain ⟨r, hupdate, heq⟩ := Option.map_eq_some_iff.1 hstep
    cases heq
    rw [SieveCachePolicy.update] at hupdate
    split at hupdate
    · next hlookup =>
      cases hupdate
      exact ⟨h, does_update_uncached (foundValue_of_lookup hlookup) rfl⟩
    · next it hlookup =>
      simp only [bind_eq_some_iff, pure_eq_some_iff] at hupdate
      obtain ⟨item, hitem, size, -, rfl⟩ := hupdate
      obtain ⟨hat, rfl⟩ := itemAt_spec hitem
      simp only [Indexed, values, get_set_eq hat]
      exact ⟨h.set hat rfl, does_update (foundValue_of_get h hat) (foundValue_set h hat)⟩
  | admitObject key value =>
    obtain ⟨r, hnew, heq⟩ := Option.map_eq_some_iff.1 hstep
    cases heq
    rw [SieveCachePolicy.admitObject] at hnew
    split at hnew
    · next it hlookup =>
      cases hnew
      obtain ⟨old, hold⟩ := exists_of_lookup h hlookup
      exact ⟨h, does_insert_cached hold rfl⟩
    · next hlookup =>
      simp only [bind_eq_some_iff, pure_eq_some_iff] at hnew
      obtain ⟨size, -, size', -, rfl⟩ := hnew
      simp only [Indexed, values, get_pushFront_eq]
      have hinsert := h.insert (a := ⟨key, value, false⟩) hlookup get_next
      refine ⟨hinsert, does_insert (foundValue_of_lookup hlookup) ?_⟩
      exact foundValue_insert ⟨key, value, false⟩ h get_next
  | evict =>
    obtain ⟨⟨u, victim⟩, hevict, heq⟩ := Option.map_eq_some_iff.1 hstep
    cases heq
    simp only [evictVictim, bind_eq_some_iff] at hevict
    obtain ⟨⟨v, victim⟩, hvictim, hevict⟩ := hevict
    obtain ⟨hv, hvalues, hempty, hcached⟩ := values_getVictimKey h hvictim
    cases victim with
    | none =>
      cases hevict
      exact ⟨hv, does_evict_none (hempty rfl) hvalues⟩
    | some key =>
      simp only [bind_eq_some_iff, pure_eq_some_iff] at hevict
      obtain ⟨⟨w, value⟩, hevict, heq⟩ := hevict
      cases heq
      -- the search has changed flags only, so the victim is evicted from the same map
      rw [← hvalues]
      rw [evictWithGivenKey] at hevict
      split at hevict
      · next hlookup => exact absurd hlookup (hcached key rfl)
      · next it hlookup =>
        simp only [bind_eq_some_iff, pure_eq_some_iff, Prod.mk.injEq] at hevict
        obtain ⟨item, hitem, rfl, rfl⟩ := hevict
        obtain ⟨hat, rfl⟩ := itemAt_spec hitem
        simp only [Indexed, values, get_erase_eq]
        exact ⟨hv.erase hat, does_evict (foundValue_of_get hv hat) (foundValue_erase hv hat)⟩

/-- In every run of SIEVE each answer is that of a map: what was written last is read, and an
eviction drops an entry with the value that it reports, unless there is none. -/
theorem sieve_explained {tr : List (Action × Output)} (h : Runs step anyAction {} tr s) :
    Explained (tr.map event) ∧ values s = content (tr.map event) :=
  explained_of_runs (P := Indexed) h (Indexes.empty fun _ => rfl) (fun _ => rfl)
    fun ht _ hs => does_step ht hs

/-- The first object is visited, so that the second one is evicted. -/
theorem sieve_explained_evicted :
    ∃ tr s, Runs step anyAction {} tr s ∧ Explained (tr.map event) ∧
      values s ⟨[1]⟩ = some (.ofSize 5) ∧ values s ⟨[2]⟩ = none := by
  have hexec : (exec step anyAction {} [.admitObject ⟨[1]⟩ (.ofSize 10),
      .admitObject ⟨[2]⟩ (.ofSize 20), .update ⟨[1]⟩ (.ofSize 5), .evict, .get ⟨[1]⟩]).any
      (fun s => decide (values s ⟨[1]⟩ = some (.ofSize 5) ∧ values s ⟨[2]⟩ = none)) = true := by
    decide +kernel
  obtain ⟨tr, s, hrun, -, hs⟩ := exists_runs_of_any hexec
  exact ⟨tr, s, hrun, (sieve_explained hrun).1, of_decide_eq_true hs⟩

end Sieve

namespace Slru

open SlruCachePolicy

variable {s t : SlruCachePolicy} {a : Action} {out : Output} {key : Key} {old item : SlruItem}
  {it lruId : Nat}

def event : Action × Output → Event Key Value
  | (.get key, .value value) => .read key value
  | (.update key value, .flag isLocalCached) => .update key value isLocalCached
  | (.admitObject key value, _) => .insert key value
  | (.evictWithGivenKey key, .value value) => .remove key value
  | _ => .other

theorem valueOfKey_of_get (h : Indexed s) (hget : (s.lruLists lruId).get it = some item) :
    s.valueOfKey item.key = some item.value := by
  rw [valueOfKey, h.resident_of_get hget, Option.map_some]

theorem valueOfKey_of_lookup (h : s.keyLookup.lookup key = none) : s.valueOfKey key = none := by
  rw [valueOfKey, resident, h]
  rfl

theorem valueOfKey_eq_update {v : Option SlruItem}
    (h : ∀ k, t.resident k = if k = key then v else s.resident k) :
    t.valueOfKey = update s.valueOfKey key (v.map SlruItem.value) := by
  funext k
  rw [valueOfKey, h k, update_apply]
  exact apply_ite (Option.map SlruItem.value) ..

/-- An object taken out of its list and put at the head of a list. -/
theorem valueOfKey_move (item : SlruItem) (h : Indexed s)
    (hget : (s.lruLists lruId).get it = some old) (hkey : item.key = old.key)
    (hseg : item.lruId < nSeg) :
    Indexed ((s.eraseItem lruId it).pushFrontItem item) ∧
      ((s.eraseItem lruId it).pushFrontItem item).valueOfKey =
        update s.valueOfKey old.key (some item.value) := by
  have herase := h.eraseItem hget
  rw [← hkey] at herase
  exact ⟨herase.pushFrontItem hseg, valueOfKey_eq_update (h.resident_move hget hkey)⟩

theorem valueOfKey_moveItem (h : Indexed s) (hmove : s.moveItem it old item = some t)
    (hget : (s.lruLists old.lruId).get it = some old) (hkey : item.key = old.key) :
    Indexed t ∧ t.valueOfKey = update s.valueOfKey old.key (some item.value) := by
  simp only [moveItem, decreaseLruAndTotalSize, increaseLruAndTotalSize, bind_eq_some_iff,
    require_eq_some_iff, pure_eq_some_iff] at hmove
  obtain ⟨s1, ⟨-, -, rfl⟩, s2, ⟨-, hseg, rfl⟩, rfl⟩ := hmove
  obtain ⟨hindexed, hvalue⟩ := valueOfKey_move _ h hget hkey hseg
  exact ⟨⟨hindexed.denotes, hindexed.inList⟩, hvalue⟩

theorem valueOfKey_loop {c : SlruCachePolicy → Bool} {fuel : Nat} (h : Indexed s)
    (hcool : ∀ {s t}, Indexed s → cool lruId s = some t → Indexed t ∧ t.valueOfKey = s.valueOfKey)
    (hloop : whileLoop c (cool lruId) fuel s = some t) :
    Indexed t ∧ t.valueOfKey = s.valueOfKey := by
  refine (whileLoop_invariant (P := fun u => Indexed u ∧ u.valueOfKey = s.valueOfKey) ?_
    ⟨h, rfl⟩ hloop).1
  rintro u v ⟨hu, hvalues⟩ - hpass
  obtain ⟨hv, hkept⟩ := hcool hu hpass
  exact ⟨hv, hkept.trans hvalues⟩

/-- Cooling keeps the values. -/
theorem valueOfKey_cool (h : Indexed s) (hcool : cool lruId s = some t) :
    Indexed t ∧ t.valueOfKey = s.valueOfKey := by
  induction lruId generalizing s t with
  | zero => cases hcool
  | succ lruId ih =>
    simp only [cool, bind_eq_some_iff, require_eq_some_iff] at hcool
    obtain ⟨-, -, ⟨it, tail⟩, hback, -, hlist, -, -, u, hmove, hloop⟩ := hcool
    have hget := LinkedList.get_of_back hback
    rw [← hlist] at hget
    -- the tail moves down with its value, and then the lists below are cooled
    obtain ⟨hu, hvalue⟩ := valueOfKey_moveItem h hmove hget rfl
    obtain ⟨ht, hkept⟩ := valueOfKey_loop hu ih hloop
    rw [hkept, hvalue, ← valueOfKey_of_get h hget, update_eq_self]
    exact ⟨ht, rfl⟩

theorem valueOfKey_access {newValue found : Option Value} (h : Indexed s)
    (haccess : s.access key newValue = some (t, found)) :
    s.valueOfKey key = found ∧ Indexed t ∧
      t.valueOfKey = update s.valueOfKey key (found.map newValue.getD) := by
  rw [access] at haccess
  split at haccess
  · next hlookup =>
    cases haccess
    have hnone := valueOfKey_of_lookup hlookup
    exact ⟨hnone, h, by rw [Option.map_none, ← hnone, update_eq_self]⟩
  · next entry hlookup =>
    simp only [bind_eq_some_iff, require_eq_some_iff] at haccess
    obtain ⟨-, hseg, old, hget, -, rfl, -, hlist, haccess⟩ := haccess
    have hold := valueOfKey_of_get h hget
    split at haccess
    · cases haccess
      exact ⟨hold, valueOfKey_move ⟨old.key, newValue.getD old.value, entry.lruId⟩ h hget rfl hseg⟩
    · simp only [bind_eq_some_iff, pure_eq_some_iff, Prod.mk.injEq] at haccess
      obtain ⟨u, hmove, v, hloop, rfl, rfl⟩ := haccess
      rw [← hlist] at hget
      obtain ⟨hu, hvalue⟩ := valueOfKey_moveItem h hmove hget rfl
      obtain ⟨hv, hkept⟩ := valueOfKey_loop hu valueOfKey_cool hloop
      exact ⟨hold, hv, hkept.trans hvalue⟩

theorem does_step (h : Indexed s) (hstep : step s a = some (t, out)) :
    Indexed t ∧ Does s.valueOfKey (event (a, out)) t.valueOfKey := by
  cases a with
  | get key =>
    obtain ⟨⟨u, found⟩, hget, heq⟩ := Option.map_eq_some_iff.1 hstep
    cases heq
    obtain ⟨rfl, ht, hvalue⟩ := valueOfKey_access h hget
    -- an access without a new value writes the old one back
    have hold : (s.valueOfKey key).map (none : Option Value).getD = s.valueOfKey key :=
      Option.map_id' ..
    rw [hold, update_eq_self] at hvalue
    exact ⟨ht, does_read rfl hvalue⟩
  | update key value =>
    obtain ⟨⟨u, isCached⟩, hupdate, heq⟩ := Option.map_eq_some_iff.1 hstep
    cases heq
    obtain ⟨⟨v, found⟩, haccess, heq⟩ := Option.map_eq_some_iff.1 hupdate
    cases heq
    obtain ⟨hfound, ht, hvalue⟩ := valueOfKey_access h haccess
    refine ⟨ht, ?_⟩
    cases found with
    | none =>
      rw [Option.map_none, ← hfound, update_eq_self] at hvalue
      exact does_update_uncached hfound hvalue
    | some old => exact does_update hfound hvalue
  | admitObject key value =>
    obtain ⟨u, hnew, heq⟩ := Option.map_eq_some_iff.1 hstep
    cases heq
    rw [SlruCachePolicy.admitObject] at hnew
    split at hnew
    · next entry hlookup =>
      cases hnew
      obtain ⟨item, hget, rfl⟩ := (h.denotes key _ _).1 hlookup
      exact ⟨h, does_insert_cached (valueOfKey_of_get h hget) rfl⟩
    · next hlookup =>
      simp only [increaseLruAndTotalSize, bind_eq_some_iff, require_eq_some_iff,
        pure_eq_some_iff] at hnew
      obtain ⟨s1, ⟨-, hseg, rfl⟩, rfl⟩ := hnew
      have hnone := h.but_of_lookup hlookup
      have hpush : Indexed (s.pushFrontItem ⟨key, value, _⟩) := hnone.pushFrontItem hseg
      refine ⟨⟨hpush.denotes, hpush.inList⟩, does_insert (valueOfKey_of_lookup hlookup) ?_⟩
      exact valueOfKey_eq_update h.resident_insert
  | getVictimKey =>
    obtain ⟨victim, -, heq⟩ := Option.map_eq_some_iff.1 hstep
    cases heq
    exact ⟨h, does_other rfl⟩
  | evictWithGivenKey key =>
    obtain ⟨⟨u, found⟩, hevict, heq⟩ := Option.map_eq_some_iff.1 hstep
    cases heq
    rw [SlruCachePolicy.evictWithGivenKey] at hevict
    split at hevict
    · next hlookup =>
      cases hevict
      exact ⟨h, does_remove_uncached (valueOfKey_of_lookup hlookup) rfl⟩
    · next entry hlookup =>
      simp only [decreaseLruAndTotalSize, bind_eq_some_iff, require_eq_some_iff,
        pure_eq_some_iff, Prod.mk.injEq] at hevict
      obtain ⟨item, hget, -, -, s1, ⟨-, -, rfl⟩, rfl, rfl⟩ := hevict
      obtain ⟨item', hget', rfl⟩ := (h.denotes key _ _).1 hlookup
      obtain rfl : item' = item := Option.some.inj (hget'.symm.trans hget)
      have herase := (h.eraseItem hget).eraseKey
      refine ⟨⟨herase.denotes, herase.inList⟩, does_remove (valueOfKey_of_get h hget) ?_⟩
      exact valueOfKey_eq_update (h.resident_erase hget)

/-- In every run of SLRU each answer is that of a map, although the byte counters may go wrong. -/
theorem slru_explained {capacityBytes : Nat} {tr : List (Action × Output)}
    (h : Runs step anyAction (create capacityBytes) tr s) :
    Explained (tr.map event) ∧ s.valueOfKey = content (tr.map event) :=
  explained_of_runs h (inv_create capacityBytes).indexed (fun _ => rfl)
    fun ht _ hs => does_step ht hs

/-- Two hits move an object up, and the lists, which have no room, are cooled. -/
theorem slru_explained_cooled :
    ∃ tr s, Runs step anyAction (create 40) tr s ∧ Explained (tr.map event) ∧
      s.valueOfKey ⟨[1]⟩ = some (.ofSize 5) ∧ s.valueOfKey ⟨[2]⟩ = none := by
  have hexec : (exec step anyAction (create 40) [.admitObject ⟨[1]⟩ (.ofSize 10),
      .admitObject ⟨[2]⟩ (.ofSize 20), .update ⟨[1]⟩ (.ofSize 5), .get ⟨[1]⟩,
      .evictWithGivenKey ⟨[2]⟩]).any (fun s => decide (s.valueOfKey ⟨[1]⟩ = some (.ofSize 5) ∧
        s.valueOfKey ⟨[2]⟩ = none)) = true := by
    decide +kernel
  obtain ⟨tr, s, hrun, -, hs⟩ := exists_runs_of_any hexec
  exact ⟨tr, s, hrun, (slru_explained hrun).1, of_decide_eq_true hs⟩

end Slru

end Covered.Cache
