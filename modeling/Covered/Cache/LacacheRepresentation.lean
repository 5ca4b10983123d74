import Covered.Cache.LacachePolicy
import Covered.Lib.Draining

/-!
# Eviction from LA-Cache

The invariant of the policy says that the lookup table finds the objects of the list and that the
arrivals of every cached key are known, so that a victim is found as long as an object is cached. It
says nothing of the value of the size: an eviction takes the bytes of the object off, and what is
left when no object is cached is `metadataBytes`, which is mainly the arrival information.
-/

set_option autoImplicit false

namespace Covered.Cache.Lacache

open Common Lib Lib.Checked Lib.Execution UnorderedMap LinkedList
open Option hiding bind_eq_some_iff
open Doubles (ofNat lt)
open LACache

variable {F : Type} [Doubles F] {s t : LACache F} {key : Key} {it : Nat} {info : CacheInfo}
  {sampler : Sampler}

/-! ## The invariant -/

/-- The bytes that the size counts for an object: the object and its entry of the lookup table. -/
def objectBytes (info : CacheInfo) : Nat := info.getSizeForCapacity + (info.key.getKeyLength + 8)

/-- The bytes of the size that are not counted for an object. -/
def LACache.metadataBytes (s : LACache F) : Nat := s.size - s.entries.bytes objectBytes

structure Inv (s : LACache F) : Prop where
  indexes : Indexes CacheInfo.key s.positions s.entries.get
  arrivals : ∀ key, (s.positions.lookup key).isSome = true →
    (s.perkeyArrivalinfo.lookup key).isSome = true
  keyLength : ∀ key, (s.positions.lookup key).isSome = true →
    key.getKeyLength + 8 < uint64Limit
  size : s.size < uint64Limit

omit [Doubles F] in
theorem inv_create : Inv (create : LACache F) where
  indexes := Indexes.empty fun _ => rfl
  arrivals := by
    intro key hcached
    cases hcached
  keyLength := by
    intro key hcached
    cases hcached
  size := show 8 < uint64Limit by decide

theorem getSizeForCapacity_lt (info : CacheInfo) : info.getSizeForCapacity < uint64Limit := by
  have hlt : objectSize info.key info.value < 2 ^ 32 := Nat.mod_lt _ (by decide)
  rw [CacheInfo.getSizeForCapacity, uint64Limit]
  omega

/-! ## Accesses and admission -/

theorem resize_lt {size before after size' : Nat} (h : resize size before after = some size')
    (hsize : size < uint64Limit) : size' < uint64Limit := by
  rw [resize] at h
  split at h
  · exact uint64Add_lt h
  · split at h
    · rw [some.injEq] at h
      exact h ▸ (uint64Minus_le _ _).trans_lt hsize
    · rw [some.injEq] at h
      exact h ▸ hsize

/-- What an update of the arrivals changes. -/
theorem updateArrivalInfo_eq (h : s.updateArrivalInfo key = some t) (hsize : s.size < uint64Limit) :
    ∃ size arrivals, size < uint64Limit ∧ t = { s with
      size := size
      timer := s.timer + 1
      perkeyArrivalinfo := s.perkeyArrivalinfo.insert key arrivals } := by
  rw [updateArrivalInfo] at h
  split at h
  · simp only [bind_eq_some_iff, pure_eq_some_iff] at h
    obtain ⟨-, -, size, hresize, rfl⟩ := h
    exact ⟨size, _, resize_lt hresize hsize, rfl⟩
  · simp only [bind_eq_some_iff, pure_eq_some_iff] at h
    obtain ⟨size, hadd, rfl⟩ := h
    exact ⟨size, _, uint64Add_lt hadd, rfl⟩

theorem Inv.updateArrivalInfo (h : Inv s) (hupdate : s.updateArrivalInfo key = some t) :
    Inv t := by
  obtain ⟨size, arrivals, hsize, rfl⟩ := updateArrivalInfo_eq hupdate h.size
  refine ⟨h.indexes, fun k hcached => ?_, h.keyLength, hsize⟩
  rw [lookup_insert_eq]
  split
  · rfl
  · exact h.arrivals k hcached

theorem Inv.get {value : Option Value} (h : Inv s) (hget : s.get key = some (t, value)) :
    Inv t := by
  rw [LACache.get] at hget
  split at hget
  · obtain ⟨u, hupdate, heq⟩ := map_eq_some_iff.1 hget
    cases heq
    exact h.updateArrivalInfo hupdate
  · simp only [bind_eq_some_iff, pure_eq_some_iff] at hget
    obtain ⟨info, -, -, -, u, hupdate, heq⟩ := hget
    cases heq
    exact h.updateArrivalInfo hupdate

theorem Inv.update {value : Value} {isCached : Bool} (h : Inv s)
    (hrun : s.update key value = some (t, isCached)) : Inv t := by
  rw [LACache.update] at hrun
  split at hrun
  · obtain ⟨u, hupdate, heq⟩ := map_eq_some_iff.1 hrun
    cases heq
    exact h.updateArrivalInfo hupdate
  · simp only [bind_eq_some_iff, pure_eq_some_iff] at hrun
    obtain ⟨info, hget, size, hresize, u, hupdate, heq⟩ := hrun
    cases heq
    have hindexes := h.indexes.set (b := { info with value := value }) hget rfl
    rw [← get_set_eq hget] at hindexes
    have hset : Inv { s with
        size := size, entries := s.entries.set _ { info with value := value } } :=
      ⟨hindexes, h.arrivals, h.keyLength, resize_lt hresize h.size⟩
    exact hset.updateArrivalInfo hupdate

omit [Doubles F] in
theorem Inv.admitObject {value : Value} {missLatency : Nat} (h : Inv s)
    (harrivals : (s.perkeyArrivalinfo.lookup key).isSome = true)
    (hadmitted : s.admitObject key value missLatency = some t) : Inv t := by
  rw [LACache.admitObject] at hadmitted
  split at hadmitted
  · cases hadmitted
    exact h
  · next hnew =>
    simp only [bind_eq_some_iff, pure_eq_some_iff] at hadmitted
    obtain ⟨size, -, size', hadd, rfl⟩ := hadmitted
    have hindexes := h.indexes.insert (a := ⟨key, value, missLatency⟩) hnew
      (get_next (l := s.entries))
    have hlength : key.getKeyLength + 8 < uint64Limit := by
      have hle := uint64Add_lt hadd
      rw [uint64Add_eq_some hadd] at hle
      omega
    refine ⟨?_, fun k hcached => ?_, fun k hcached => ?_, uint64Add_lt hadd⟩
    · rw [pushBack, get_insertAt_eq]
      exact hindexes
    · rw [lookup_insert_eq] at hcached
      split at hcached
      · next hk => rwa [hk]
      · exact h.arrivals k hcached
    · rw [lookup_insert_eq] at hcached
      split at hcached
      · next hk => rwa [hk]
      · exact h.keyLength k hcached

/-! ## The victim -/

/-- The victim so far is a cached object. -/
def IsVictim (s : LACache F) (best : F × Key) : Prop :=
  ∃ it info, s.entries.get it = some info ∧ info.key = best.2

theorem Inv.betterVictim (h : Inv s) {victim : Option (F × Key)}
    (hvictim : ∀ best ∈ victim, IsVictim s best) (hinfo : info ∈ s.entries.toList) :
    ∃ best, s.betterVictim victim info = some (some best) ∧ IsVictim s best := by
  obtain ⟨it, hget⟩ := mem_toList_iff.1 hinfo
  have hcached : (s.positions.lookup info.key).isSome = true := by
    rw [h.indexes.lookup_of_get hget, isSome_some]
  obtain ⟨arrivals, harrivals⟩ := isSome_iff_exists.1 (h.arrivals info.key hcached)
  simp only [LACache.betterVictim, harrivals, some_bind, pure_def]
  cases victim with
  | none => exact ⟨_, rfl, it, info, hget, rfl⟩
  | some best =>
    dsimp only
    split
    · exact ⟨_, rfl, it, info, hget, rfl⟩
    · exact ⟨best, rfl, hvictim best rfl⟩

/-- A comparison of objects, of which there is one, ends with a cached object. -/
theorem Inv.foldlM_betterVictim (h : Inv s) {infos : List CacheInfo} (hne : infos ≠ [])
    (hsub : ∀ info ∈ infos, info ∈ s.entries.toList) :
    ∃ best, infos.foldlM s.betterVictim none = some (some best) ∧ IsVictim s best := by
  cases infos with
  | nil => exact absurd rfl hne
  | cons info rest =>
    have hnone : ∀ best ∈ (none : Option (F × Key)), IsVictim s best := by
      intro best hbest
      cases hbest
    obtain ⟨best, hfirst, hvictim⟩ := h.betterVictim hnone (hsub info List.mem_cons_self)
    -- from the first object on there is a victim
    have hrest : ∃ victim, rest.foldlM s.betterVictim (some best) = some victim ∧
        ∃ best, victim = some best ∧ IsVictim s best := by
      refine foldlM_isSome (fun victim info' hinfo' => ?_) ⟨best, rfl, hvictim⟩
      rintro ⟨best', rfl, hvictim'⟩
      obtain ⟨best'', hnext, hvictim''⟩ := h.betterVictim
        (fun b hb => some.inj hb ▸ hvictim') (hsub info' (List.mem_cons_of_mem info hinfo'))
      exact ⟨some best'', hnext, best'', rfl, hvictim''⟩
    obtain ⟨-, hfold, best', rfl, hvictim'⟩ := hrest
    refine ⟨best', ?_, hvictim'⟩
    rw [List.foldlM_cons, hfirst, some_bind, hfold]

/-- As long as an object is cached a victim is found. -/
theorem Inv.getVictimKey (sampler : Sampler) (h : Inv s) (hne : s.entries.toList ≠ []) :
    ∃ draws it info, s.getVictimKey sampler = some ({ s with draws := draws }, some info.key) ∧
      s.entries.get it = some info := by
  have hpos : s.entries.toList.length > 0 := List.length_pos_iff.2 hne
  have hsampled : ∃ best, (if s.comparesAll then s.entries.toList
      else sampler.sample s.draws s.entries.toList).foldlM s.betterVictim none =
        some (some best) ∧ IsVictim s best := by
    split
    · exact h.foldlM_betterVictim hne fun _ hinfo => hinfo
    · refine h.foldlM_betterVictim ?_ fun info hinfo => (sampler.sublist _ _).subset hinfo
      apply List.ne_nil_of_length_pos
      rw [sampler.length]
      exact lt_min (by decide) hpos
  obtain ⟨best, hfold, it, info, hget, hkey⟩ := hsampled
  refine ⟨if s.comparesAll = true then s.draws else s.draws + 1, it, info, ?_, hget⟩
  rw [LACache.getVictimKey, if_pos hpos]
  simp only [hfold, some_bind, pure_def, map_some, getD_some, hkey]

theorem getVictimKey_of_empty (h : s.entries.toList = []) :
    s.getVictimKey sampler = some (s, none) := by
  rw [LACache.getVictimKey, h, if_neg (by simp)]

/-! ## Eviction -/

omit [Doubles F] in
/-- An eviction takes exactly the bytes of the object off, or all that is left. -/
theorem Inv.evictWithGivenKey (h : Inv s) (hget : s.entries.get it = some info) :
    ∃ t, s.evictWithGivenKey info.key = some (t, true) ∧ Inv t ∧
      t.size = s.size - objectBytes info ∧
      s.entries.bytes objectBytes = t.entries.bytes objectBytes + objectBytes info ∧
      t.entries.toList.length < s.entries.toList.length := by
  have hlookup := h.indexes.lookup_of_get hget
  have hlength := h.keyLength info.key (by rw [hlookup, isSome_some])
  have hsize : uint64Minus (uint64Minus s.size info.getSizeForCapacity)
      (info.key.getKeyLength + 8) = s.size - objectBytes info := by
    have hfirst := uint64Minus_eq_sub h.size (getSizeForCapacity_lt info)
    rw [hfirst, uint64Minus_eq_sub ((Nat.sub_le _ _).trans_lt h.size) hlength, Nat.sub_sub,
      objectBytes]
  refine ⟨{ s with
      size := s.size - objectBytes info
      entries := s.entries.erase it
      positions := s.positions.erase info.key }, ?_, ⟨?_, fun k hcached => ?_,
    fun k hcached => ?_, (Nat.sub_le _ _).trans_lt h.size⟩, rfl,
    (bytes_erase objectBytes hget).symm,
    Nat.lt_of_succ_le (length_toList_erase hget).le⟩
  · simp only [LACache.evictWithGivenKey, hlookup, hget, some_bind, pure_def, hsize]
  · rw [get_erase_eq]
    exact h.indexes.erase hget
  · rw [lookup_erase_eq] at hcached
    split at hcached
    · cases hcached
    · exact h.arrivals k hcached
  · rw [lookup_erase_eq] at hcached
    split at hcached
    · cases hcached
    · exact h.keyLength k hcached

omit [Doubles F] in
/-- Eviction of a key that need not be cached. -/
theorem Inv.evictWithGivenKey_of_eq {isEvict : Bool} (h : Inv s)
    (hevict : s.evictWithGivenKey key = some (t, isEvict)) : Inv t := by
  cases hlookup : s.positions.lookup key with
  | none =>
    simp only [LACache.evictWithGivenKey, hlookup, some.injEq, Prod.mk.injEq] at hevict
    exact hevict.1 ▸ h
  | some it =>
    obtain ⟨info, hget, rfl⟩ := (h.indexes key it).1 hlookup
    obtain ⟨u, heq, hinv, -⟩ := h.evictWithGivenKey hget
    rw [heq, some.injEq, Prod.mk.injEq] at hevict
    exact hevict.1 ▸ hinv

/-! ## Runs -/

theorem Inv.step {a : Action} {out : Output} (h : Inv s) (hpromised : Promised s a)
    (hstep : step sampler s a = some (t, out)) : Inv t := by
  cases a with
  | get key =>
    obtain ⟨⟨u, value⟩, hget, heq⟩ := map_eq_some_iff.1 hstep
    cases heq
    exact h.get hget
  | update key value =>
    obtain ⟨⟨u, isCached⟩, hupdate, heq⟩ := map_eq_some_iff.1 hstep
    cases heq
    exact h.update hupdate
  | admitObject key value missLatency =>
    obtain ⟨u, hadmitted, heq⟩ := map_eq_some_iff.1 hstep
    cases heq
    exact h.admitObject hpromised hadmitted
  | getVictimKey =>
    obtain ⟨⟨u, victim⟩, hvictim, heq⟩ := map_eq_some_iff.1 hstep
    cases heq
    by_cases hne : s.entries.toList = []
    · rw [getVictimKey_of_empty hne] at hvictim
      cases hvictim
      exact h
    · obtain ⟨draws, it, info, hvictim', -⟩ := h.getVictimKey sampler hne
      rw [hvictim'] at hvictim
      cases hvictim
      exact ⟨h.indexes, h.arrivals, h.keyLength, h.size⟩
  | evictWithGivenKey key =>
    obtain ⟨⟨u, isEvict⟩, hevict, heq⟩ := map_eq_some_iff.1 hstep
    cases heq
    exact h.evictWithGivenKey_of_eq hevict

theorem inv_of_runs {tr : List (Action × Output)}
    (h : Runs (step sampler) Promised (create : LACache F) tr s) : Inv s :=
  h.invariant inv_create fun hinv hpromised hstep => hinv.step hpromised hstep

/-! ## Draining -/

/-- The eviction of the victim. -/
def LACache.evict (sampler : Sampler) : LACache F → Option (LACache F) :=
  evictForFineGrainedManagement (getVictimKey sampler) evictWithGivenKey

/-- One call of `evict` with an object cached. -/
theorem Inv.evict (sampler : Sampler) (h : Inv s) (hne : s.entries.toList ≠ []) :
    ∃ t info, s.evict sampler = some t ∧ Inv t ∧ t.size = s.size - objectBytes info ∧
      s.entries.bytes objectBytes = t.entries.bytes objectBytes + objectBytes info ∧
      t.entries.toList.length < s.entries.toList.length := by
  obtain ⟨draws, it, info, hvictim, hget⟩ := h.getVictimKey sampler hne
  have hdrawn : Inv { s with draws := draws } := ⟨h.indexes, h.arrivals, h.keyLength, h.size⟩
  obtain ⟨t, hevict, hinv, hsize, hbytes, hlength⟩ := hdrawn.evictWithGivenKey hget
  exact ⟨t, info, evictForFineGrainedManagement_eq_some_iff.2 ⟨_, _, hvictim, hevict⟩, hinv, hsize,
    hbytes, hlength⟩

/-- Evictions empty the cache. -/
theorem drains (sampler : Sampler) : Drains (σ := LACache F) Inv (LACache.evict sampler)
    (fun s => s.entries.toList.length) getSizeForCapacity where
  removes := by
    intro s h hcount
    obtain ⟨t, info, hevict, hinv, hsize, -, hlength⟩ :=
      h.evict sampler fun hnil => hcount (congrArg List.length hnil)
    exact ⟨t, hevict, hinv, hlength, hsize.le.trans (Nat.sub_le _ _)⟩
  fails := by
    intro s h hcount
    exact evictForFineGrainedManagement_eq_none
      (getVictimKey_of_empty (List.length_eq_zero_iff.1 hcount))

/-- An empty cache has the size of the metadata. -/
theorem Inv.size_emptied (h : Inv s)
    (hempty : Emptied (LACache.evict sampler) (fun s => s.entries.toList.length) s t) :
    t.size = s.metadataBytes := by
  refine (drains sampler).size_emptied (fun s => s.entries.bytes objectBytes)
    (fun u hu => ?_) (fun u v hu hevict => ?_) h hempty
  · rw [bytes, List.length_eq_zero_iff.1 hu]
    rfl
  · have hne : u.entries.toList ≠ [] := by
      intro hnil
      have hnone := (drains sampler).fails u hu (congrArg List.length hnil)
      rw [hnone] at hevict
      cases hevict
    obtain ⟨w, info, hevict', -, hsize, hbytes, -⟩ := hu.evict sampler hne
    rw [hevict] at hevict'
    cases hevict'
    exact ⟨objectBytes info, hsize, hbytes⟩

end Covered.Cache.Lacache
