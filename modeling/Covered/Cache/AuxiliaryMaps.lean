import Covered.Cache.CoveredCacheWrapper
import Covered.Lib.Execution

/-!
# The maps beside the local cache

The functions that hold the lock of a key are atomic, but two callers are not: an evictor selects
its victims, evicts them one after the other, and only then erases their beacon edges; and an
invalidation is called after a separate check that the key is cached. The machine below interleaves
them with the functions of the other workers. One evictor runs at a time, under its own lock.

Every cached key has a validity flag and the victims of the evictor stay cached until it gets to
them, whatever is interleaved: the exits of the evictor are unreachable. The converse needs `Meets`:
a flag outlives its key when a checked key is evicted before it is invalidated, and a cached key
loses its beacon edge when it is admitted again before the clean-up of its eviction.
-/

set_option autoImplicit false

namespace Covered.Cache.AuxiliaryMaps

open Common Lib Lib.Execution CoveredCacheWrapper

/-- An eviction in progress: the victims still to evict and those already evicted. -/
structure Eviction where
  remaining : List Key
  victims : List Key := []

/-- The wrapper, the evictor and the keys that were found cached and are about to be invalidated. -/
structure State where
  wrapper : CoveredCacheWrapper
  eviction : Option Eviction := none
  checked : List Key := []

inductive Action
  | get (key : Key) (rank : Nat)
  | update (key : Key) (value : Value) (rank : Nat)
  | updateIfInvalidForGetrsp (key : Key) (value : Value) (rank : Nat)
  | admitObject (key : Key) (value : Value) (isValid : Bool) (beaconEdgeidx rank : Nat)
  | checkLocalCached (key : Key)
  | invalidate (index : Nat)
  | startEvict (requiredSize : Nat)
  | evictVictim (key : Key)
  | finishEvict

/-- A step is done, or it ends the process by an exit of the evictor. -/
inductive Response
  | done
  | exited (exit : EvictionExit)
deriving DecidableEq

def initial (capacityBytes : Nat) : State := { wrapper := ⟨{ capacityBytes }, {}, ∅⟩ }

/-- The selection of the victims. The caller evicts while more bytes are used than the capacity has,
so the required size is positive. -/
def startEvict (s : State) (requiredSize : Nat) : Option (State × Response) :=
  if s.eviction.isNone ∧ 0 < requiredSize then do
    match ← s.wrapper.selectVictims requiredSize with
    | .ok keys => return ({ s with eviction := some { remaining := keys } }, .done)
    | .error exit => return (s, .exited exit)
  else some (s, .done)

/-- The eviction of one of the remaining victims; a set of keys has no order. -/
def evictOne (s : State) (key : Key) : Option (State × Response) :=
  match s.eviction with
  | none => some (s, .done)
  | some e =>
      if key ∈ e.remaining then do
        match ← s.wrapper.evictVictim key with
        | .ok (wrapper, _) =>
            return ({ s with
              wrapper
              eviction := some ⟨e.remaining.erase key, key :: e.victims⟩ }, .done)
        | .error exit => return (s, .exited exit)
      else some (s, .done)

/-- The clean-up after the last victim. -/
def finishEvict (s : State) : State :=
  match s.eviction with
  | none => s
  | some e =>
      if e.remaining = [] then
        { s with wrapper := s.wrapper.eraseBeaconEdgeidxs e.victims, eviction := none }
      else s

/-- One step; `none` is a failed assertion or another exit, and an action that is not enabled
changes nothing. -/
def step (s : State) : Action → Option (State × Response)
  | .get key rank => (s.wrapper.get key rank).map fun r => ({ s with wrapper := r.1 }, .done)
  | .update key value rank =>
      (s.wrapper.update key value rank).map fun r => ({ s with wrapper := r.1 }, .done)
  | .updateIfInvalidForGetrsp key value rank =>
      (s.wrapper.updateIfInvalidForGetrsp key value rank).map fun r =>
        ({ s with wrapper := r.1 }, .done)
  | .admitObject key value isValid beaconEdgeidx rank =>
      (s.wrapper.admitObject key value isValid beaconEdgeidx rank).map fun w =>
        ({ s with wrapper := w }, .done)
  | .checkLocalCached key =>
      some (if s.wrapper.isLocalCached key then { s with checked := key :: s.checked } else s,
        .done)
  | .invalidate index =>
      match s.checked[index]? with
      | none => some (s, .done)
      | some key =>
          some ({ s with
            wrapper := s.wrapper.invalidateKeyForLocalCachedObject key
            checked := s.checked.eraseIdx index }, .done)
  | .startEvict requiredSize => startEvict s requiredSize
  | .evictVictim key => evictOne s key
  | .finishEvict => some (finishEvict s, .done)

/-- No operation is in progress. -/
def State.Quiescent (s : State) : Prop := s.eviction.isNone ∧ s.checked = []

instance (s : State) : Decidable s.Quiescent := inferInstanceAs (Decidable (_ ∧ _))

/-- A checked key is still cached when it is invalidated, and no victim is cached again when the
evictor cleans up. -/
def Meets (s : State) : Action → Prop
  | .invalidate index => ∀ key ∈ s.checked[index]?, s.wrapper.isLocalCached key = true
  | .finishEvict => ∀ e ∈ s.eviction, ∀ key ∈ e.victims, s.wrapper.isLocalCached key = false
  | _ => True

instance (s : State) (a : Action) : Decidable (Meets s a) :=
  match a with
  | .invalidate index =>
      inferInstanceAs (Decidable (∀ key ∈ s.checked[index]?, s.wrapper.isLocalCached key = true))
  | .finishEvict => inferInstanceAs (Decidable
      (∀ e ∈ s.eviction, ∀ key ∈ e.victims, s.wrapper.isLocalCached key = false))
  | .get _ _ => inferInstanceAs (Decidable True)
  | .update _ _ _ => inferInstanceAs (Decidable True)
  | .updateIfInvalidForGetrsp _ _ _ => inferInstanceAs (Decidable True)
  | .admitObject _ _ _ _ _ => inferInstanceAs (Decidable True)
  | .checkLocalCached _ => inferInstanceAs (Decidable True)
  | .startEvict _ => inferInstanceAs (Decidable True)
  | .evictVictim _ => inferInstanceAs (Decidable True)

/-! ## What a function does to the key sets -/

section KeySets

variable {w w' : CoveredCacheWrapper} {key k : Key} {value : Value}

theorem isExist_eq (map : ValidityMap) (k : Key) : map.isExist k = (map.find k).isSome := rfl

theorem isLocalCached_eq (w : CoveredCacheWrapper) (k : Key) :
    w.isLocalCached k = (w.localCache.find k).isSome := rfl

theorem isSome_update {V : Type} (f : Key → Option V) (key k : Key) (o : Option V) :
    (Function.update f key o k).isSome = if k = key then o.isSome else (f k).isSome := by
  rw [Function.update_apply]
  split <;> rfl

/-- No key enters or leaves the cache, and only a cached key may get a flag. -/
structure SameKeys (w w' : CoveredCacheWrapper) : Prop where
  cached : ∀ k, w'.isLocalCached k = w.isLocalCached k
  flagged : ∀ k, w.validityMap.isExist k = true → w'.validityMap.isExist k = true
  flagged_only : ∀ k, w'.validityMap.isExist k = true →
    w.validityMap.isExist k = true ∨ w.isLocalCached k = true
  beacons : w'.perkeyBeaconEdgeidx = w.perkeyBeaconEdgeidx

theorem sameKeys_of_sameMaps (h : SameMaps w w') : SameKeys w w' where
  cached := fun k => by rw [isLocalCached_eq, h.find, isLocalCached_eq]
  flagged := fun k hk => by rwa [h.flags]
  flagged_only := fun k hk => by
    rw [h.flags] at hk
    exact .inl hk
  beacons := h.beacons

/-- A flag that is set for a key. -/
theorem isExist_of_flagged {flag : ValidityFlag}
    (h : w'.validityMap.find = Function.update w.validityMap.find key (some flag)) :
    w'.validityMap.isExist k = true ↔ k = key ∨ w.validityMap.isExist k = true := by
  rw [isExist_eq, h, isSome_update, isExist_eq]
  by_cases hk : k = key <;> simp [hk]

theorem sameKeys_of_updatedKey {isSuccessful : Bool} (h : UpdatedKey w w' key value isSuccessful) :
    SameKeys w w' where
  cached := fun k => by
    rw [isLocalCached_eq, h.find, isLocalCached_eq]
    cases isSuccessful with
    | true => exact CoveredLocalCache.isSome_update_of_cached h.cached k
    | false => rfl
  flagged := fun k hk => (isExist_of_flagged h.flags).2 (.inr hk)
  flagged_only := fun k hk => by
    rcases (isExist_of_flagged h.flags).1 hk with rfl | hold
    · exact .inr h.cached
    · exact .inl hold
  beacons := h.beacons

theorem sameKeys_get {rank : Nat} {result : Option Value}
    (h : w.get key rank = some (w', result)) : SameKeys w w' :=
  sameKeys_of_sameMaps (get_spec h).1

theorem sameKeys_update {rank : Nat} {isLocalCached : Bool}
    (h : w.update key value rank = some (w', isLocalCached)) : SameKeys w w' := by
  obtain ⟨-, -, hsame⟩ | ⟨-, isSuccessful, hupdated⟩ := update_spec h
  · exact sameKeys_of_sameMaps hsame
  · exact sameKeys_of_updatedKey hupdated

theorem sameKeys_updateIfInvalidForGetrsp {rank : Nat} {isInvalid : Bool}
    (h : w.updateIfInvalidForGetrsp key value rank = some (w', isInvalid)) : SameKeys w w' := by
  obtain ⟨-, hsame, -⟩ | ⟨-, -, isSuccessful, hupdated⟩ := updateIfInvalidForGetrsp_spec h
  · exact sameKeys_of_sameMaps hsame
  · exact sameKeys_of_updatedKey hupdated

theorem isLocalCached_admitObject {isValid : Bool} (h : AdmittedKey w w' key value isValid) :
    w'.isLocalCached k = true ↔ k = key ∨ w.isLocalCached k = true := by
  rw [isLocalCached_eq, h.find, isSome_update, isLocalCached_eq]
  by_cases hk : k = key <;> simp [hk]

theorem isExist_admitObject {isValid : Bool} (h : AdmittedKey w w' key value isValid) :
    w'.validityMap.isExist k = true ↔ k = key ∨ w.validityMap.isExist k = true :=
  isExist_of_flagged h.flags

theorem isExist_invalidate :
    (w.invalidateKeyForLocalCachedObject key).validityMap.isExist k = true ↔
      k = key ∨ w.validityMap.isExist k = true :=
  isExist_of_flagged (find_validateKey w key false)

theorem isLocalCached_evict (h : EvictedKey w w' key value) :
    w'.isLocalCached k = true ↔ k ≠ key ∧ w.isLocalCached k = true := by
  rw [isLocalCached_eq, h.find, isSome_update, isLocalCached_eq]
  by_cases hk : k = key <;> simp [hk]

theorem isExist_evict (h : EvictedKey w w' key value) :
    w'.validityMap.isExist k = true ↔ k ≠ key ∧ w.validityMap.isExist k = true := by
  rw [isExist_eq, h.flags, isSome_update, isExist_eq]
  by_cases hk : k = key <;> simp [hk]

end KeySets

/-! ## Every run -/

/-- Every cached key has a flag, and the victims still to evict are cached. -/
structure Inv (s : State) : Prop where
  flagged : ∀ k, s.wrapper.isLocalCached k = true → s.wrapper.validityMap.isExist k = true
  nodup : ∀ e ∈ s.eviction, e.remaining.Nodup
  remaining : ∀ e ∈ s.eviction, ∀ k ∈ e.remaining, s.wrapper.isLocalCached k = true

section Step

variable {s s' : State} {w' : CoveredCacheWrapper} {a : Action} {out : Response}

/-- The wrapper changes, no key leaves it, and each key that enters has a flag. -/
theorem Inv.of_grows (h : Inv s)
    (hcached : ∀ k, s.wrapper.isLocalCached k = true → w'.isLocalCached k = true)
    (hflagged : ∀ k, w'.isLocalCached k = true → w'.validityMap.isExist k = true)
    (checked : List Key) : Inv { s with wrapper := w', checked } where
  flagged := hflagged
  nodup := h.nodup
  remaining := fun e he k hk => hcached k (h.remaining e he k hk)

theorem Inv.of_sameKeys (h : Inv s) (hsame : SameKeys s.wrapper w') :
    Inv { s with wrapper := w' } := by
  refine h.of_grows ?_ ?_ s.checked
  · intro k hk
    rwa [hsame.cached]
  · intro k hk
    rw [hsame.cached] at hk
    exact hsame.flagged k (h.flagged k hk)

theorem Inv.admitObject (h : Inv s) {key : Key} {value : Value} {isValid : Bool}
    (hadmitted : AdmittedKey s.wrapper w' key value isValid) : Inv { s with wrapper := w' } := by
  refine h.of_grows ?_ ?_ s.checked
  · intro k hk
    exact (isLocalCached_admitObject hadmitted).2 (.inr hk)
  · intro k hk
    apply (isExist_admitObject hadmitted).2
    exact ((isLocalCached_admitObject hadmitted).1 hk).imp_right (h.flagged k)

theorem Inv.invalidate (h : Inv s) (key : Key) (checked : List Key) :
    Inv { s with wrapper := s.wrapper.invalidateKeyForLocalCachedObject key, checked } := by
  refine @Inv.of_grows s (s.wrapper.invalidateKeyForLocalCachedObject key) h ?_ ?_ checked
  · intro k hk
    exact hk
  · intro k hk
    exact isExist_invalidate.2 (.inr (h.flagged k hk))

/-- An eviction starts with victims that are cached. -/
theorem startEvict_spec {requiredSize : Nat} (hstep : startEvict s requiredSize = some (s', out)) :
    (s' = s ∨ s.eviction = none ∧ ∃ keys, s' = { s with eviction := some { remaining := keys } } ∧
      keys.Nodup ∧ ∀ k ∈ keys, s.wrapper.isLocalCached k = true) ∧
      ∀ exit, out ≠ .exited exit := by
  rw [startEvict] at hstep
  split at hstep
  · next henabled =>
    simp only [Option.bind_eq_bind, Option.bind_eq_some_iff] at hstep
    obtain ⟨result, hselect, hstep⟩ := hstep
    obtain ⟨-, hzero⟩ | ⟨keys, rfl, hnodup, hcached⟩ := selectVictims_spec hselect
    · omega
    · cases hstep
      refine ⟨.inr ⟨Option.isNone_iff_eq_none.1 henabled.1, keys, rfl, hnodup, hcached⟩, ?_⟩
      intro exit hexit
      cases hexit
  · cases hstep
    exact ⟨.inl rfl, fun exit hexit => by cases hexit⟩

/-- The next victim is cached and has a flag, so it is evicted. -/
theorem Inv.evictOne (h : Inv s) {key : Key} (hstep : evictOne s key = some (s', out)) :
    (s' = s ∨ ∃ e w' value, s.eviction = some e ∧ key ∈ e.remaining ∧
      EvictedKey s.wrapper w' key value ∧ s' = { s with
        wrapper := w'
        eviction := some ⟨e.remaining.erase key, key :: e.victims⟩ }) ∧
      ∀ exit, out ≠ .exited exit := by
  rw [AuxiliaryMaps.evictOne] at hstep
  cases heviction : s.eviction with
  | none =>
    rw [heviction] at hstep
    cases hstep
    exact ⟨.inl rfl, fun exit hexit => by cases hexit⟩
  | some e =>
    simp only [heviction] at hstep
    split at hstep
    · next hkey =>
      simp only [Option.bind_eq_bind, Option.bind_eq_some_iff] at hstep
      obtain ⟨result, hvictim, hstep⟩ := hstep
      have hcached := h.remaining e heviction key hkey
      obtain ⟨w', value, rfl, hevicted⟩ | ⟨-, huncached⟩ | ⟨-, hnoflag⟩ :=
        evictVictim_spec hvictim
      · cases hstep
        exact ⟨.inr ⟨e, w', value, rfl, hkey, hevicted, rfl⟩, fun exit hexit => by cases hexit⟩
      · rw [hcached] at huncached
        cases huncached
      · rw [h.flagged key hcached] at hnoflag
        cases hnoflag
    · cases hstep
      exact ⟨.inl rfl, fun exit hexit => by cases hexit⟩

theorem Inv.evicted (h : Inv s) {e : Eviction} {key : Key} {value : Value}
    (heviction : s.eviction = some e) (hevicted : EvictedKey s.wrapper w' key value) :
    Inv { s with
      wrapper := w'
      eviction := some ⟨e.remaining.erase key, key :: e.victims⟩ } where
  flagged := fun k hk => by
    obtain ⟨hne, hcached⟩ := (isLocalCached_evict hevicted).1 hk
    exact (isExist_evict hevicted).2 ⟨hne, h.flagged k hcached⟩
  nodup := fun e' he => by
    cases he
    exact (h.nodup e heviction).erase key
  remaining := fun e' he k hk => by
    cases he
    -- the victim was in the set once
    obtain ⟨hne, hmem⟩ := (h.nodup e heviction).mem_erase_iff.1 hk
    exact (isLocalCached_evict hevicted).2 ⟨hne, h.remaining e heviction k hmem⟩

theorem Inv.finishEvict (h : Inv s) : Inv (finishEvict s) := by
  rw [AuxiliaryMaps.finishEvict]
  split
  · exact h
  · split
    · exact ⟨h.flagged, fun _ he => (by cases he), fun _ he => (by cases he)⟩
    · exact h

/-- No step takes an exit of the evictor. -/
theorem Inv.step (h : Inv s) (hstep : step s a = some (s', out)) :
    Inv s' ∧ ∀ exit, out ≠ .exited exit := by
  have hdone : out = .done → ∀ exit, out ≠ .exited exit := by
    rintro rfl exit hexit
    cases hexit
  cases a with
  | get key rank =>
    obtain ⟨⟨w', _⟩, hget, hpair⟩ := Option.map_eq_some_iff.1 hstep
    cases hpair
    exact ⟨h.of_sameKeys (sameKeys_get hget), hdone rfl⟩
  | update key value rank =>
    obtain ⟨⟨w', _⟩, hupdate, hpair⟩ := Option.map_eq_some_iff.1 hstep
    cases hpair
    exact ⟨h.of_sameKeys (sameKeys_update hupdate), hdone rfl⟩
  | updateIfInvalidForGetrsp key value rank =>
    obtain ⟨⟨w', _⟩, hupdate, hpair⟩ := Option.map_eq_some_iff.1 hstep
    cases hpair
    exact ⟨h.of_sameKeys (sameKeys_updateIfInvalidForGetrsp hupdate), hdone rfl⟩
  | admitObject key value isValid beaconEdgeidx rank =>
    obtain ⟨w', hadmitted, hpair⟩ := Option.map_eq_some_iff.1 hstep
    cases hpair
    exact ⟨h.admitObject (admitObject_spec hadmitted), hdone rfl⟩
  | checkLocalCached key =>
    cases hstep
    refine ⟨?_, hdone rfl⟩
    split
    · exact ⟨h.flagged, h.nodup, h.remaining⟩
    · exact h
  | invalidate index =>
    rw [AuxiliaryMaps.step] at hstep
    split at hstep
    · cases hstep
      exact ⟨h, hdone rfl⟩
    · cases hstep
      exact ⟨h.invalidate _ _, hdone rfl⟩
  | startEvict requiredSize =>
    obtain ⟨rfl | ⟨-, keys, rfl, hnodup, hcached⟩, hout⟩ := startEvict_spec hstep
    · exact ⟨h, hout⟩
    · refine ⟨⟨h.flagged, fun e he => ?_, fun e he k hk => ?_⟩, hout⟩
      · cases he
        exact hnodup
      · cases he
        exact hcached k hk
  | evictVictim key =>
    obtain ⟨rfl | ⟨e, w', value, heviction, -, hevicted, rfl⟩, hout⟩ := h.evictOne hstep
    · exact ⟨h, hout⟩
    · exact ⟨h.evicted heviction hevicted, hout⟩
  | finishEvict =>
    cases hstep
    exact ⟨h.finishEvict, hdone rfl⟩

end Step

theorem inv_initial (capacityBytes : Nat) : Inv (initial capacityBytes) where
  flagged := fun k hk => by
    have hnone : (initial capacityBytes).wrapper.localCache.find k = none := AList.lookup_empty k
    rw [isLocalCached_eq, hnone] at hk
    cases hk
  nodup := fun e he => by cases he
  remaining := fun e he => by cases he

/-! ## Runs that meet the condition -/

/-- The flags follow the cached keys; the beacon edges follow them and the victims that are not
cleaned up yet. -/
structure Followed (s : State) : Prop where
  flags : ∀ k, s.wrapper.validityMap.isExist k = true → s.wrapper.isLocalCached k = true
  beacons : ∀ k, (s.wrapper.perkeyBeaconEdgeidx.lookup k).isSome = true ↔
    s.wrapper.isLocalCached k = true ∨ ∃ e ∈ s.eviction, k ∈ e.victims

section Step

variable {s s' : State} {w' : CoveredCacheWrapper} {a : Action} {out : Response}

theorem Followed.of_sameKeys (h : Followed s) (hsame : SameKeys s.wrapper w') (checked : List Key) :
    Followed { s with wrapper := w', checked } where
  flags := fun k hk => by
    rw [hsame.cached]
    rcases hsame.flagged_only k hk with hold | hcached
    · exact h.flags k hold
    · exact hcached
  beacons := fun k => by rw [hsame.beacons, hsame.cached, h.beacons]

theorem Followed.admitObject (h : Followed s) {key : Key} {value : Value} {isValid : Bool}
    (hadmitted : AdmittedKey s.wrapper w' key value isValid) :
    Followed { s with wrapper := w' } where
  flags := fun k hk =>
    (isLocalCached_admitObject hadmitted).2
      (((isExist_admitObject hadmitted).1 hk).imp_right (h.flags k))
  beacons := fun k => by
    rw [hadmitted.beacons, Bool.or_eq_true, decide_eq_true_eq, h.beacons,
      isLocalCached_admitObject hadmitted,
      or_assoc]

/-- An invalidation of a cached key only sets its flag. -/
theorem sameKeys_invalidate {w : CoveredCacheWrapper} {key : Key}
    (hcached : w.isLocalCached key = true) :
    SameKeys w (w.invalidateKeyForLocalCachedObject key) where
  cached := fun _ => rfl
  flagged := fun _ hk => isExist_invalidate.2 (.inr hk)
  flagged_only := fun k hk => by
    rcases isExist_invalidate.1 hk with rfl | hold
    · exact .inr hcached
    · exact .inl hold
  beacons := rfl

theorem Followed.evicted (h : Followed s) {e : Eviction} {key : Key} {value : Value}
    (heviction : s.eviction = some e) (hevicted : EvictedKey s.wrapper w' key value) :
    Followed { s with
      wrapper := w'
      eviction := some ⟨e.remaining.erase key, key :: e.victims⟩ } where
  flags := fun k hk => by
    obtain ⟨hne, hflag⟩ := (isExist_evict hevicted).1 hk
    exact (isLocalCached_evict hevicted).2 ⟨hne, h.flags k hflag⟩
  beacons := fun k => by
    have hkey : s.wrapper.isLocalCached key = true := by
      rw [isLocalCached_eq, hevicted.value]
      rfl
    have hold := h.beacons k
    rw [heviction] at hold
    rw [hevicted.beacons, hold, isLocalCached_evict hevicted]
    simp only [Option.mem_def, Option.some.injEq, exists_eq_left', List.mem_cons]
    -- the victim was cached and is a victim to clean up now
    by_cases hk : k = key
    · simp only [hk, hkey, true_or, or_true, ne_eq, not_true, false_and]
    · simp only [hk, ne_eq, not_false_iff, true_and, false_or]

/-- The clean-up erases the beacon edges of keys that are not cached. -/
theorem Followed.finishEvict (h : Followed s) (hmeets : Meets s .finishEvict) :
    Followed (finishEvict s) := by
  rw [AuxiliaryMaps.finishEvict]
  cases heviction : s.eviction with
  | none => exact h
  | some e =>
    have hgone : ∀ k ∈ e.victims, s.wrapper.isLocalCached k = false := hmeets e heviction
    dsimp only
    split
    · refine ⟨h.flags, fun k => ?_⟩
      have hold := h.beacons k
      rw [heviction] at hold
      simp only [Option.mem_def, Option.some.injEq, exists_eq_left'] at hold
      have hcached : (s.wrapper.eraseBeaconEdgeidxs e.victims).isLocalCached k =
          s.wrapper.isLocalCached k := rfl
      rw [lookup_eraseBeaconEdgeidxs, hcached]
      by_cases hk : k ∈ e.victims
      · simp [hk, hgone k hk]
      · simp only [hk, if_false, hold, or_false, Option.mem_def, reduceCtorEq, false_and,
          exists_false]
    · exact h

theorem Followed.step (h : Followed s) (hinv : Inv s) (hmeets : Meets s a)
    (hstep : step s a = some (s', out)) : Followed s' := by
  cases a with
  | get key rank =>
    obtain ⟨⟨w', _⟩, hget, hpair⟩ := Option.map_eq_some_iff.1 hstep
    cases hpair
    exact h.of_sameKeys (sameKeys_get hget) s.checked
  | update key value rank =>
    obtain ⟨⟨w', _⟩, hupdate, hpair⟩ := Option.map_eq_some_iff.1 hstep
    cases hpair
    exact h.of_sameKeys (sameKeys_update hupdate) s.checked
  | updateIfInvalidForGetrsp key value rank =>
    obtain ⟨⟨w', _⟩, hupdate, hpair⟩ := Option.map_eq_some_iff.1 hstep
    cases hpair
    exact h.of_sameKeys (sameKeys_updateIfInvalidForGetrsp hupdate) s.checked
  | admitObject key value isValid beaconEdgeidx rank =>
    obtain ⟨w', hadmitted, hpair⟩ := Option.map_eq_some_iff.1 hstep
    cases hpair
    exact h.admitObject (admitObject_spec hadmitted)
  | checkLocalCached key =>
    cases hstep
    split
    · exact ⟨h.flags, h.beacons⟩
    · exact h
  | invalidate index =>
    rw [AuxiliaryMaps.step] at hstep
    split at hstep
    · cases hstep
      exact h
    · next key hkey =>
      cases hstep
      exact h.of_sameKeys (sameKeys_invalidate (hmeets key hkey)) _
  | startEvict requiredSize =>
    obtain ⟨rfl | ⟨hnone, keys, rfl, -, -⟩, -⟩ := startEvict_spec hstep
    · exact h
    · refine ⟨h.flags, fun k => ?_⟩
      have hold := h.beacons k
      rw [hnone] at hold
      rw [hold]
      simp
  | evictVictim key =>
    obtain ⟨rfl | ⟨e, w', value, heviction, -, hevicted, rfl⟩, -⟩ := hinv.evictOne hstep
    · exact h
    · exact h.evicted heviction hevicted
  | finishEvict =>
    cases hstep
    exact h.finishEvict hmeets

end Step

theorem followed_initial (capacityBytes : Nat) : Followed (initial capacityBytes) where
  flags := fun k hk => by
    rw [isExist_eq, initial, ConcurrentHashtable.find_empty] at hk
    cases hk
  beacons := fun k => by
    have hcached : (initial capacityBytes).wrapper.localCache.find k = none := AList.lookup_empty k
    have hbeacon : (initial capacityBytes).wrapper.perkeyBeaconEdgeidx.lookup k = none :=
      AList.lookup_empty k
    rw [isLocalCached_eq, hcached, hbeacon]
    simp [initial]

/-- No run takes an exit of the evictor. In every run whose steps all meet the condition, the keys
with a validity flag and the keys with a beacon edge are the cached keys whenever no operation is in
progress. -/
theorem maps_follow_cached_keys (capacityBytes : Nat) :
    (∀ tr s, Runs step anyAction (initial capacityBytes) tr s →
      ∀ a exit, (a, Response.exited exit) ∉ tr) ∧
    ∀ tr s, Runs step Meets (initial capacityBytes) tr s → s.Quiescent →
      ∀ key, (s.wrapper.validityMap.isExist key = s.wrapper.isLocalCached key) ∧
        (s.wrapper.perkeyBeaconEdgeidx.lookup key).isSome = s.wrapper.isLocalCached key := by
  constructor
  · intro tr s hrun
    have hinv : Inv s ∧ ∀ a exit, (a, Response.exited exit) ∉ tr := by
      apply hrun.trace_invariant (P := fun tr s => Inv s ∧ ∀ a exit, (a, Response.exited exit) ∉ tr)
      · exact ⟨inv_initial capacityBytes, fun _ _ hmem => by cases hmem⟩
      · rintro tr s a s' out ⟨hinv, hearlier⟩ - hstep
        obtain ⟨hinv', hout⟩ := hinv.step hstep
        refine ⟨hinv', fun a' exit hmem => ?_⟩
        rcases List.mem_cons.1 hmem with hlast | hold
        · exact hout exit (Prod.mk.inj hlast).2.symm
        · exact hearlier a' exit hold
    exact hinv.2
  · intro tr s hrun hquiescent key
    have hinv : Inv s ∧ Followed s := by
      apply hrun.invariant (P := fun s => Inv s ∧ Followed s)
      · exact ⟨inv_initial capacityBytes, followed_initial capacityBytes⟩
      · rintro s a s' out ⟨hinv, hfollowed⟩ hmeets hstep
        exact ⟨(hinv.step hstep).1, hfollowed.step hinv hmeets hstep⟩
    obtain ⟨hinv, hfollowed⟩ := hinv
    constructor
    · rw [Bool.eq_iff_iff]
      exact ⟨hfollowed.flags key, hinv.flagged key⟩
    · rw [Bool.eq_iff_iff, hfollowed.beacons key, Option.isNone_iff_eq_none.1 hquiescent.1]
      simp

/-! ## Concrete runs -/

/-- An admission of a key with eight bytes. -/
def admitEight : Action := .admitObject ⟨[7]⟩ (.ofSize 8) true 0 0

/-- The key is evicted and admitted again before the clean-up of its eviction. -/
def admitBeforeCleanup : List Action :=
  [admitEight, .startEvict 1, .evictVictim ⟨[7]⟩, admitEight, .finishEvict]

/-- The key is evicted between the check that it is cached and its invalidation. -/
def evictBeforeInvalidation : List Action :=
  [admitEight, .checkLocalCached ⟨[7]⟩, .startEvict 1, .evictVictim ⟨[7]⟩, .finishEvict,
    .invalidate 0]

/-- A quiescent state in which the key of the runs is cached, has a flag and has a beacon edge as
given. -/
def endsWith (cached flagged noted : Bool) (s : State) : Bool :=
  decide (s.Quiescent ∧ s.wrapper.isLocalCached ⟨[7]⟩ = cached ∧
    s.wrapper.validityMap.isExist ⟨[7]⟩ = flagged ∧
      (s.wrapper.perkeyBeaconEdgeidx.lookup ⟨[7]⟩).isSome = noted)

/-- A key that is not cached keeps a flag, and a cached key has no beacon edge. -/
theorem maps_leave_cached_keys :
    (¬ ∀ capacityBytes tr s, Runs step anyAction (initial capacityBytes) tr s → s.Quiescent →
      ∀ key, s.wrapper.validityMap.isExist key = s.wrapper.isLocalCached key) ∧
    ¬ ∀ capacityBytes tr s, Runs step anyAction (initial capacityBytes) tr s → s.Quiescent →
      ∀ key, (s.wrapper.perkeyBeaconEdgeidx.lookup key).isSome = s.wrapper.isLocalCached key := by
  constructor
  · intro h
    have hexec : (exec step anyAction (initial 100) evictBeforeInvalidation).any
        (endsWith false true false) = true := by
      decide +kernel
    obtain ⟨tr, s, hrun, -, hend⟩ := exists_runs_of_any hexec
    obtain ⟨hquiescent, hcached, hflagged, -⟩ := of_decide_eq_true hend
    have hkey := h 100 tr s hrun hquiescent ⟨[7]⟩
    rw [hcached, hflagged] at hkey
    cases hkey
  · intro h
    have hexec : (exec step anyAction (initial 100) admitBeforeCleanup).any
        (endsWith true true false) = true := by
      decide +kernel
    obtain ⟨tr, s, hrun, -, hend⟩ := exists_runs_of_any hexec
    obtain ⟨hquiescent, hcached, -, hnoted⟩ := of_decide_eq_true hend
    have hkey := h 100 tr s hrun hquiescent ⟨[7]⟩
    rw [hcached, hnoted] at hkey
    cases hkey

/-- The key is admitted again after the clean-up of its eviction. -/
theorem maps_follow_cached_keys_readmitted :
    ∃ tr s, Runs step Meets (initial 100) tr s ∧ s.Quiescent ∧
      s.wrapper.isLocalCached ⟨[7]⟩ = true ∧ s.wrapper.validityMap.isExist ⟨[7]⟩ = true ∧
        (s.wrapper.perkeyBeaconEdgeidx.lookup ⟨[7]⟩).isSome = true := by
  have hexec : (exec step Meets (initial 100) [admitEight, .checkLocalCached ⟨[7]⟩, .invalidate 0,
      .startEvict 1, .evictVictim ⟨[7]⟩, .finishEvict, admitEight]).any
        (fun s => decide (s.Quiescent ∧ s.wrapper.isLocalCached ⟨[7]⟩ = true)) = true := by
    decide +kernel
  obtain ⟨tr, s, hrun, -, hend⟩ := exists_runs_of_any hexec
  obtain ⟨hquiescent, hcached⟩ := of_decide_eq_true hend
  obtain ⟨hflagged, hnoted⟩ := (maps_follow_cached_keys 100).2 tr s hrun hquiescent ⟨[7]⟩
  exact ⟨tr, s, hrun, hquiescent, hcached, hflagged.trans hcached, hnoted.trans hcached⟩

end Covered.Cache.AuxiliaryMaps
