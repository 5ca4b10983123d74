import Covered.Cache.AdaptsizeCache
import Covered.Lib.Draining

/-!
# Eviction from AdaptSize

As for every LRU list, the lookup table finds the objects of the list, so that the oldest one can be
evicted as long as there is one. An eviction takes its bytes off the size, and what is left when no
object is cached is `metadataBytes`: the overhead, the counters of the keys and the vectors.

Of the statistics only one fact is needed, that their size stays a 64-bit number; it is kept by
every function, whatever the arithmetic of the hit rate does.
-/

set_option autoImplicit false

namespace Covered.Cache.Adaptsize

open Common Lib Lib.Checked Lib.Execution LinkedList
open Option hiding bind_eq_some_iff

variable {F : Type} [Doubles F] {platform : Platform F} {cacheSize : Nat} {key : Key}
  {value : Value}

/-! ## The size stays a 64-bit number -/

/-- The size is a 64-bit number. -/
def Bounded (s : Statistics F) : Prop := s.currentSize < uint64Limit

section Statistics

open Statistics

variable {s t u : Statistics F}

omit [Doubles F] in
theorem bounded_add {bytes : Nat} (h : s.add bytes = some t) : Bounded t := by
  obtain ⟨n, hadd, rfl⟩ := map_eq_some_iff.1 h
  exact uint64Add_lt hadd

omit [Doubles F] in
theorem Bounded.sub (h : Bounded s) (bytes : Nat) : Bounded (s.sub bytes) :=
  (uint64Minus_le _ _).trans_lt h

theorem Bounded.modelHitRate {log2c hitRate : F} (h : Bounded s)
    (hmodel : modelHitRate cacheSize s log2c = some (t, hitRate)) : Bounded t := by
  simp only [Statistics.modelHitRate] at hmodel
  split at hmodel
  · cases hmodel
    exact h
  · simp only [bind_eq_some_iff, pure_eq_some_iff, Prod.mk.injEq] at hmodel
    obtain ⟨u, hfold, rfl, -⟩ := hmodel
    refine foldlM_invariant (P := Bounded) (fun _ _ _ _ _ hadd => bounded_add hadd) ?_ hfold
    exact h.sub (s.alignedAdmProb.length * 8)

section Choice

variable {P : Statistics F → Prop} (hmodel : ∀ {u v : Statistics F} {log2c hitRate : F},
  P u → modelHitRate cacheSize u log2c = some (v, hitRate) → P v)
include hmodel

theorem gridSearch_invariant {x1 x3 x best : F} (h : P s)
    (hgrid : gridSearch cacheSize s x1 x3 = some (t, x, best)) : P t := by
  refine foldlM_invariant (P := fun r : Statistics F × F × F => P r.1)
    (fun r x' r' _ hr hpass => ?_) h hgrid
  simp only [bind_eq_some_iff, pure_eq_some_iff] at hpass
  obtain ⟨⟨u, hitRate⟩, hrate, rfl⟩ := hpass
  split
  · exact hmodel hr hrate
  · exact hmodel hr hrate

variable {p q : Search F}

theorem prepareSearch_invariant {x0 x1 x3 best : F} (h : P s)
    (hprepare : prepareSearch cacheSize s x0 x1 x3 best = some (t, p)) : P t := by
  rw [Statistics.prepareSearch] at hprepare
  split at hprepare
  all_goals
    simp only [bind_eq_some_iff, pure_eq_some_iff, Prod.mk.injEq] at hprepare
    obtain ⟨r, hrate, rfl, -⟩ := hprepare
    exact hmodel h hrate

theorem sectionStep_invariant (h : P s)
    (hstep : sectionStep cacheSize s p = some (t, q)) : P t := by
  rw [Statistics.sectionStep] at hstep
  split at hstep
  all_goals
    simp only [bind_eq_some_iff, pure_eq_some_iff, Prod.mk.injEq] at hstep
    obtain ⟨r, hrate, rfl, -⟩ := hstep
    exact hmodel h hrate

theorem sectionSearch_invariant {n : Nat} (h : P s)
    (hsearch : sectionSearch cacheSize n s p = some (t, q)) : P t := by
  induction n generalizing s p with
  | zero =>
    cases hsearch
    exact h
  | succ n ih =>
    rw [Statistics.sectionSearch] at hsearch
    split at hsearch
    · cases hsearch
      exact h
    · obtain ⟨⟨u, p'⟩, hstep, hrest⟩ := bind_eq_some_iff.1 hsearch
      exact ih (sectionStep_invariant hmodel h hstep) hrest

/-- What a model of the hit rate keeps and what does not depend on the scale, the choice of the
scale keeps. -/
theorem chooseScale_invariant
    (hscale : ∀ {u : Statistics F} (c : F), P u → P { u with cParam := c })
    (h : P s) (hchoose : chooseScale cacheSize s = some t) : P t := by
  simp only [Statistics.chooseScale, bind_eq_some_iff] at hchoose
  obtain ⟨⟨s1, x1, best⟩, hgrid, ⟨s2, p⟩, hprepare, -, -, ⟨s3, q⟩, hsearch, hchosen⟩ := hchoose
  have hgridded := gridSearch_invariant hmodel h hgrid
  have hprepared := prepareSearch_invariant hmodel hgridded hprepare
  have hsearched := sectionSearch_invariant hmodel hprepared hsearch
  split at hchosen
  · cases hchosen
    exact hsearched
  · cases hchosen
    exact hscale _ hsearched

end Choice

theorem Bounded.chooseScale (h : Bounded s) (hchoose : chooseScale cacheSize s = some t) :
    Bounded t :=
  chooseScale_invariant (fun h hrate => Bounded.modelHitRate h hrate) (fun _ h => h) h hchoose

variable {entry : Key × ObjInfo F}

theorem Bounded.persistInfo (h : Bounded s)
    (hpersist : persistInfo s entry = some t) : Bounded t := by
  obtain ⟨u, hu, rfl⟩ := map_eq_some_iff.1 hpersist
  apply Bounded.sub
  rw [addLongTerm] at hu
  split at hu
  · cases hu
    exact h
  · exact bounded_add hu

theorem Bounded.visitInfo {next : Option Key} (h : Bounded s)
    (hvisit : visitInfo platform s entry next = some t) : Bounded t := by
  rw [Statistics.visitInfo] at hvisit
  split at hvisit
  · simp only [bind_eq_some_iff, pure_eq_some_iff] at hvisit
    obtain ⟨keyLength, -, rfl⟩ := hvisit
    exact Bounded.sub h _
  · exact bounded_add hvisit

theorem Bounded.visitInfos {entries : List (Key × ObjInfo F)} (h : Bounded s)
    (hvisit : visitInfos platform s entries = some t) : Bounded t := by
  induction entries generalizing s with
  | nil =>
    cases hvisit
    exact h
  | cons entry rest ih =>
    obtain ⟨u, hfirst, hrest⟩ := bind_eq_some_iff.1 hvisit
    exact ih (h.visitInfo hfirst) hrest

theorem Bounded.renewStatistics (h : Bounded s)
    (hrenew : renewStatistics platform s = some t) : Bounded t := by
  simp only [Statistics.renewStatistics, bind_eq_some_iff] at hrenew
  obtain ⟨u, hfold, hvisit⟩ := hrenew
  have hpersisted : Bounded u := by
    refine foldlM_invariant (P := Bounded) (fun _ _ _ _ hb hpersist => hb.persistInfo hpersist) ?_
      hfold
    exact h
  refine Bounded.visitInfos ?_ hvisit
  exact (Bounded.sub (s := { u with intervalMetadata := ∅ }) hpersisted _).sub _

theorem Bounded.reconfigure (h : Bounded s)
    (hreconfigure : s.reconfigure platform cacheSize = some t) : Bounded t := by
  simp only [Statistics.reconfigure] at hreconfigure
  split at hreconfigure
  · cases hreconfigure
    exact h
  · split at hreconfigure
    · cases hreconfigure
      exact h
    · simp only [bind_eq_some_iff] at hreconfigure
      obtain ⟨u, hrenew, hchoose⟩ := hreconfigure
      refine Bounded.chooseScale (Bounded.renewStatistics ?_ hrenew) hchoose
      exact h

theorem Bounded.metadataUpdate {objsize : Nat} (h : Bounded s)
    (hupdate : s.metadataUpdate platform cacheSize key objsize = some t) : Bounded t := by
  simp only [Statistics.metadataUpdate, bind_eq_some_iff] at hupdate
  obtain ⟨u, hreconfigure, hcount⟩ := hupdate
  have hbounded := h.reconfigure hreconfigure
  split at hcount
  · cases hcount
    exact hbounded
  · exact bounded_add hcount

end Statistics

/-! ## The invariant -/

variable {s t : AdaptSizeCache F} {it : Nat} {item : Item}

open AdaptSizeCache

/-- The bytes that the size counts for an object: the object and its entry of the lookup table. -/
def objectBytes (item : Item) : Nat := item.1.getKeyLength + 8 + objectSize item.1 item.2

/-- The bytes of the size that are not counted for an object. -/
def AdaptSizeCache.metadataBytes (s : AdaptSizeCache F) : Nat :=
  s.stats.currentSize - s.cacheList.bytes objectBytes

structure Inv (s : AdaptSizeCache F) : Prop where
  indexes : Indexes Prod.fst s.cacheMap s.cacheList.get
  keyLength : ∀ key, (s.cacheMap.lookup key).isSome = true → key.getKeyLength + 8 < uint64Limit
  bounded : Bounded s.stats

theorem inv_create (cacheSize : Nat) : Inv (create cacheSize : AdaptSizeCache F) where
  indexes := Indexes.empty fun _ => rfl
  keyLength := by
    intro key hcached
    cases hcached
  bounded := show 2 * 8 + 4 * 8 < uint64Limit by decide

theorem objectSize_lt (key : Key) (value : Value) : objectSize key value < uint64Limit :=
  (Nat.mod_lt _ (by decide)).trans (by decide : 2 ^ 32 < uint64Limit)

/-! ## Accesses and admission -/

theorem Inv.metadataUpdate (h : Inv s) (hupdate : s.metadataUpdate platform key value = some t) :
    Inv t := by
  obtain ⟨stats, hstats, rfl⟩ := map_eq_some_iff.1 hupdate
  exact ⟨h.indexes, h.keyLength, h.bounded.metadataUpdate hstats⟩

theorem Inv.lookup {result : Option Value} (h : Inv s)
    (hlookup : s.lookup platform key = some (t, result)) : Inv t := by
  rw [AdaptSizeCache.lookup] at hlookup
  split at hlookup
  · cases hlookup
    exact h
  · simp only [bind_eq_some_iff, pure_eq_some_iff, Prod.mk.injEq] at hlookup
    obtain ⟨item, -, -, -, u, hupdate, rfl, -⟩ := hlookup
    refine Inv.metadataUpdate ?_ hupdate
    refine ⟨fun k r => ?_, h.keyLength, h.bounded⟩
    rw [get_moveToFront]
    exact h.indexes k r

omit [Doubles F] in
/-- A new object takes the place of an object of its key. -/
theorem Inv.replaceObject (h : Inv s) (hlookup : s.cacheMap.lookup key = some it)
    (hreplace : s.replaceObject key value it = some t) : Inv t := by
  simp only [AdaptSizeCache.replaceObject, bind_eq_some_iff, require_eq_some_iff,
    pure_eq_some_iff] at hreplace
  obtain ⟨item, hget, -, hkey, stats, hadd, rfl⟩ := hreplace
  have hindexes := h.indexes.move (b := (key, value)) hget hkey.symm
    (get_next (l := s.cacheList))
  have hne : s.cacheList.next ≠ it := (lt_next_of_get hget).ne'
  refine ⟨?_, fun k hcached => ?_, (bounded_add hadd).sub _⟩
  · rw [get_erase_eq, get_pushFront_eq, Function.update_comm hne]
    rw [hkey] at hindexes
    exact hindexes
  · rw [UnorderedMap.lookup_insert_eq] at hcached
    split at hcached
    · next hk =>
      exact h.keyLength k (by rw [hk, hlookup, isSome_some])
    · exact h.keyLength k hcached

theorem Inv.update {isCached : Bool} (h : Inv s)
    (hupdate : s.update platform key value = some (t, isCached)) : Inv t := by
  rw [AdaptSizeCache.update] at hupdate
  split at hupdate
  · obtain ⟨u, hmetadata, heq⟩ := map_eq_some_iff.1 hupdate
    cases heq
    exact h.metadataUpdate hmetadata
  · next it hlookup =>
    simp only [bind_eq_some_iff] at hupdate
    obtain ⟨u, hreplace, hrest⟩ := hupdate
    obtain ⟨v, hmetadata, heq⟩ := map_eq_some_iff.1 hrest
    cases heq
    exact (h.replaceObject hlookup hreplace).metadataUpdate hmetadata

omit [Doubles F] in
theorem Inv.admitObject (h : Inv s) (hadmitted : s.admitObject key value = some t) : Inv t := by
  simp only [AdaptSizeCache.admitObject, bind_eq_some_iff, require_eq_some_iff,
    pure_eq_some_iff] at hadmitted
  obtain ⟨-, hnew, -, -, -, -, stats, -, stats', hadd, rfl⟩ := hadmitted
  rw [isCached, isSome_eq_false_iff, isNone_iff_eq_none] at hnew
  have hindexes := h.indexes.insert (a := (key, value)) hnew
    (get_next (l := s.cacheList))
  have hlength : key.getKeyLength + 8 < uint64Limit := by
    obtain ⟨n, hn, -⟩ := map_eq_some_iff.1 hadd
    have hle := uint64Add_lt hn
    rw [uint64Add_eq_some hn] at hle
    omega
  refine ⟨?_, fun k hcached => ?_, bounded_add hadd⟩
  · rw [get_pushFront_eq]
    exact hindexes
  · rw [UnorderedMap.lookup_insert_eq] at hcached
    split at hcached
    · next hk => rwa [hk]
    · exact h.keyLength k hcached

/-! ## Eviction -/

omit [Doubles F] in
/-- An eviction takes exactly the bytes of the object off, or all that is left. -/
theorem Inv.evict (h : Inv s) (hget : s.cacheList.get it = some item) :
    ∃ t, s.evict item.1 = some (t, some item.2) ∧ Inv t ∧
      t.getSizeForCapacity = s.getSizeForCapacity - objectBytes item ∧
      s.cacheList.bytes objectBytes = t.cacheList.bytes objectBytes + objectBytes item ∧
      t.cacheList.toList.length < s.cacheList.toList.length := by
  have hlookup := h.indexes.lookup_of_get hget
  have hlength := h.keyLength item.1 (by rw [hlookup, isSome_some])
  have hfirst := uint64Minus_eq_sub h.bounded hlength
  have hsize : uint64Minus (uint64Minus s.stats.currentSize (item.1.getKeyLength + 8))
      (objectSize item.1 item.2) = s.stats.currentSize - objectBytes item := by
    rw [hfirst, uint64Minus_eq_sub ((Nat.sub_le _ _).trans_lt h.bounded) (objectSize_lt _ _),
      Nat.sub_sub, objectBytes]
  refine ⟨{ s with
      stats := (s.stats.sub (item.1.getKeyLength + 8)).sub (objectSize item.1 item.2)
      cacheList := s.cacheList.erase it
      cacheMap := s.cacheMap.erase item.1 }, ?_, ⟨?_, fun k hcached => ?_,
    (h.bounded.sub _).sub _⟩, hsize, (bytes_erase objectBytes hget).symm,
    Nat.lt_of_succ_le (length_toList_erase hget).le⟩
  · simp only [AdaptSizeCache.evict, hlookup, hget, some_bind, pure_def]
  · rw [get_erase_eq]
    exact h.indexes.erase hget
  · rw [UnorderedMap.lookup_erase_eq] at hcached
    split at hcached
    · cases hcached
    · exact h.keyLength k hcached

omit [Doubles F] in
/-- Eviction of a key that need not be cached. -/
theorem Inv.evict_of_eq {result : Option Value} (h : Inv s)
    (hevict : s.evict key = some (t, result)) : Inv t := by
  cases hlookup : s.cacheMap.lookup key with
  | none =>
    simp only [AdaptSizeCache.evict, hlookup, some.injEq, Prod.mk.injEq] at hevict
    exact hevict.1 ▸ h
  | some it =>
    obtain ⟨item, hget, rfl⟩ := (h.indexes key it).1 hlookup
    obtain ⟨u, heq, hinv, -⟩ := h.evict hget
    rw [heq, some.injEq, Prod.mk.injEq] at hevict
    exact hevict.1 ▸ hinv

/-! ## Runs -/

theorem Inv.step {a : Action} {out : Output} (h : Inv s)
    (hstep : step platform s a = some (t, out)) : Inv t := by
  cases a with
  | lookup key =>
    obtain ⟨⟨u, result⟩, hlookup, heq⟩ := map_eq_some_iff.1 hstep
    cases heq
    exact h.lookup hlookup
  | update key value =>
    obtain ⟨⟨u, isCached⟩, hupdate, heq⟩ := map_eq_some_iff.1 hstep
    cases heq
    exact h.update hupdate
  | admitObject key value =>
    obtain ⟨u, hadmitted, heq⟩ := map_eq_some_iff.1 hstep
    cases heq
    exact h.admitObject hadmitted
  | getVictimKey =>
    cases hstep
    exact h
  | evict key =>
    obtain ⟨⟨u, result⟩, hevict, heq⟩ := map_eq_some_iff.1 hstep
    cases heq
    exact h.evict_of_eq hevict

theorem inv_of_runs {tr : List (Action × Output)}
    (h : Runs (step platform) anyAction (create cacheSize : AdaptSizeCache F) tr s) : Inv s :=
  h.invariant (inv_create cacheSize) fun hinv _ hstep => hinv.step hstep

/-! ## Draining -/

/-- The eviction of the oldest object. -/
def AdaptSizeCache.evictOldest : AdaptSizeCache F → Option (AdaptSizeCache F) :=
  evictForFineGrainedManagement (fun s => some (s, s.getVictimKey)) fun s key =>
    (s.evict key).map fun r => (r.1, r.2.isSome)

omit [Doubles F] in
/-- One call of `evictOldest` with an object cached. -/
theorem Inv.evictOldest (h : Inv s) (hne : s.cacheList.toList ≠ []) :
    ∃ t item, s.evictOldest = some t ∧ Inv t ∧
      t.getSizeForCapacity = s.getSizeForCapacity - objectBytes item ∧
      s.cacheList.bytes objectBytes = t.cacheList.bytes objectBytes + objectBytes item ∧
      t.cacheList.toList.length < s.cacheList.toList.length := by
  cases hback : s.cacheList.back with
  | none => exact absurd (back_eq_none_iff.1 hback) hne
  | some tail =>
    obtain ⟨it, item⟩ := tail
    obtain ⟨t, hevict, hinv, hsize, hbytes, hlength⟩ := h.evict (get_of_back hback)
    refine ⟨t, item, ?_, hinv, hsize, hbytes, hlength⟩
    refine evictForFineGrainedManagement_eq_some_iff.2 ⟨s, item.1, ?_, ?_⟩
    · rw [getVictimKey, hback, map_some]
    · rw [hevict, map_some, isSome_some]

omit [Doubles F] in
/-- Evictions empty the cache. -/
theorem drains : Drains (σ := AdaptSizeCache F) Inv AdaptSizeCache.evictOldest
    (fun s => s.cacheList.toList.length) getSizeForCapacity where
  removes := by
    intro s h hcount
    obtain ⟨t, item, hevict, hinv, hsize, -, hlength⟩ :=
      h.evictOldest fun hnil => hcount (congrArg List.length hnil)
    exact ⟨t, hevict, hinv, hlength, hsize.le.trans (Nat.sub_le _ _)⟩
  fails := by
    intro s h hcount
    have hback := back_eq_none_iff.2 (List.length_eq_zero_iff.1 hcount)
    apply evictForFineGrainedManagement_eq_none (t := s)
    rw [getVictimKey, hback, map_none]

omit [Doubles F] in
/-- An empty cache has the size of the metadata. -/
theorem Inv.size_emptied (h : Inv s)
    (hempty : Emptied AdaptSizeCache.evictOldest (fun s => s.cacheList.toList.length) s t) :
    t.getSizeForCapacity = s.metadataBytes := by
  refine drains.size_emptied (fun s => s.cacheList.bytes objectBytes)
    (fun u hu => ?_) (fun u v hu hevict => ?_) h hempty
  · rw [bytes, List.length_eq_zero_iff.1 hu]
    rfl
  · have hne : u.cacheList.toList ≠ [] := by
      intro hnil
      rw [drains.fails u hu (congrArg List.length hnil)] at hevict
      cases hevict
    obtain ⟨w, item, hevict', -, hsize, hbytes, -⟩ := hu.evictOldest hne
    rw [hevict] at hevict'
    cases hevict'
    exact ⟨objectBytes item, hsize, hbytes⟩

end Covered.Cache.Adaptsize
