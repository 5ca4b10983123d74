import Covered.Cache.CoveredLocalCache

/-!
# The cache wrapper over the COVERED local cache

The wrapper keeps three maps: the pairs of the local cache, the validity flag of each key, and the
beacon edge of each key. Its functions update them one after the other and trust what the local
cache reports. A function that holds the lock of its key is one atomic step; `evict` holds the lock
of one victim at a time, so it is given in its parts: the selection of the victims, the eviction of
one victim, and the clean-up of the beacon edges.

`object` is what a reader of the wrapper can tell of a key: its value and whether it is valid. Each
function has one lemma that says what it does to the three maps; `Represents` relates the wrapper
to the objects with versions of `CacheWrapper`, and every function keeps it.
-/

set_option autoImplicit false

namespace Covered.Cache

open Common Lib Lib.Checked CoveredLocalCache

structure ValidityFlag where
  isValidFlag : Bool
deriving DecidableEq

instance : SizeForCapacity ValidityFlag := ⟨fun _ => 1⟩

/-- The validity flags of the keys. -/
abbrev ValidityMap := ConcurrentHashtable ValidityFlag

namespace ValidityMap

def isKeyExist (map : ValidityMap) (key : Key) : Bool := map.isExist key

/-- The flag of a key if there is one. -/
def isValidFlagForKey (map : ValidityMap) (key : Key) : Option Bool :=
  map.constCallIfExist key ValidityFlag.isValidFlag

def invalidateFlagForKey (map : ValidityMap) (key : Key) : ValidityMap :=
  (map.insertOrUpdate key ⟨false⟩).1

def validateFlagForKey (map : ValidityMap) (key : Key) : ValidityMap :=
  (map.insertOrUpdate key ⟨true⟩).1

/-- The map without the flag of a key, and whether there was one. -/
def eraseFlagForKey (map : ValidityMap) (key : Key) : ValidityMap × Bool := map.eraseIfExist key

theorem find_invalidate (map : ValidityMap) (key : Key) :
    (map.invalidateFlagForKey key).find = Function.update map.find key (some ⟨false⟩) :=
  ConcurrentHashtable.find_insertOrUpdate map key ⟨false⟩

theorem find_validate (map : ValidityMap) (key : Key) :
    (map.validateFlagForKey key).find = Function.update map.find key (some ⟨true⟩) :=
  ConcurrentHashtable.find_insertOrUpdate map key ⟨true⟩

end ValidityMap

/-- The exits of the process in `evictForFineGrainedManagement_`. -/
inductive EvictionExit
  | noVictimKey
  | notInLocalCache (key : Key)
  | notInValidityMap (key : Key)
deriving DecidableEq

/-- The local cache with the two maps beside it. -/
structure CoveredCacheWrapper where
  localCache : CoveredLocalCache
  validityMap : ValidityMap := {}
  perkeyBeaconEdgeidx : UnorderedMap Key Nat := ∅

namespace CoveredCacheWrapper

def isLocalCached (w : CoveredCacheWrapper) (key : Key) : Bool := w.localCache.isLocalCached key

/-- The flag of a cached key; without a flag the key counts as invalid. -/
def isValidKeyForLocalCachedObject (w : CoveredCacheWrapper) (key : Key) : Bool :=
  (w.validityMap.isValidFlagForKey key).getD false

/-- Set the flag of a key, as the four validity helpers of the wrapper do. -/
def validateKey (w : CoveredCacheWrapper) (key : Key) (isValid : Bool) : CoveredCacheWrapper :=
  { w with validityMap :=
      if isValid then w.validityMap.validateFlagForKey key
      else w.validityMap.invalidateFlagForKey key }

def invalidateKeyForLocalCachedObject (w : CoveredCacheWrapper) (key : Key) : CoveredCacheWrapper :=
  w.validateKey key false

/-- The value of a key that is cached and valid, as `get` and `get_p2p` return it. -/
def get (w : CoveredCacheWrapper) (key : Key) (rank : Nat) :
    Option (CoveredCacheWrapper × Option Value) := do
  let (localCache, value) ← w.localCache.getLocalCache key rank
  return ({ w with localCache }, if w.isValidKeyForLocalCachedObject key then value else none)

/-- Update a cached key; returns whether the key is cached. -/
def update (w : CoveredCacheWrapper) (key : Key) (value : Value) (rank : Nat) :
    Option (CoveredCacheWrapper × Bool) := do
  let (localCache, isLocalCached, isSuccessful) ← w.localCache.updateLocalCache key value rank
  let w' := { w with localCache }
  if isLocalCached then
    return (w'.validateKey key isSuccessful, true)
  else
    require (isSuccessful = false)
    return (w', false)

def remove (w : CoveredCacheWrapper) (key : Key) (rank : Nat) :
    Option (CoveredCacheWrapper × Bool) :=
  w.update key deletedValue rank

/-- Update a key that is cached and invalid; returns whether it was. -/
def updateIfInvalidForGetrsp (w : CoveredCacheWrapper) (key : Key) (value : Value) (rank : Nat) :
    Option (CoveredCacheWrapper × Bool) := do
  if w.isLocalCached key then
    if w.isValidKeyForLocalCachedObject key then
      return (w, false)
    else
      let (localCache, isLocalCached, isSuccessful) ← w.localCache.updateLocalCache key value rank
      require (isLocalCached = true)
      return (({ w with localCache } : CoveredCacheWrapper).validateKey key isSuccessful, true)
  else
    let (localCache, isLocalCached, isSuccessful) ← w.localCache.updateLocalCache key value rank
    require (isLocalCached = false)
    require (isSuccessful = false)
    return ({ w with localCache }, false)

/-- Admit a pair, set its flag, and note its beacon edge unless one is noted. -/
def admitObject (w : CoveredCacheWrapper) (key : Key) (value : Value) (isValid : Bool)
    (beaconEdgeidx rank : Nat) : Option CoveredCacheWrapper := do
  let (localCache, isSuccessful) ← w.localCache.admitLocalCache key value rank
  let w' := { w with localCache }
  if isSuccessful then
    return { w'.validateKey key isValid with
      perkeyBeaconEdgeidx :=
        if (w.perkeyBeaconEdgeidx.lookup key).isNone then
          w.perkeyBeaconEdgeidx.insert key beaconEdgeidx
        else w.perkeyBeaconEdgeidx }
  else return w'

/-- The victims of an eviction. -/
def selectVictims (w : CoveredCacheWrapper) (requiredSize : Nat) :
    Option (Except EvictionExit (List Key)) := do
  let keys ← w.localCache.getLocalCacheVictimKeys requiredSize
  return if keys = [] then .error .noVictimKey else .ok keys

/-- Evict one victim from the local cache and from the validity map. -/
def evictVictim (w : CoveredCacheWrapper) (key : Key) :
    Option (Except EvictionExit (CoveredCacheWrapper × Value)) := do
  let (localCache, victim) ← w.localCache.evictLocalCacheWithGivenKey key
  match victim with
  | none => return .error (.notInLocalCache key)
  | some value =>
      let (validityMap, isExist) := w.validityMap.eraseFlagForKey key
      return if isExist then .ok ({ w with localCache, validityMap }, value)
        else .error (.notInValidityMap key)

/-- The clean-up at the end of an eviction: the victims lose their beacon edges. -/
def eraseBeaconEdgeidxs (w : CoveredCacheWrapper) (victims : List Key) : CoveredCacheWrapper :=
  { w with
    perkeyBeaconEdgeidx := victims.foldl (fun map key => map.erase key) w.perkeyBeaconEdgeidx }

/-- Evict the victims one after the other; an exit ends the process. -/
def evictVictims : CoveredCacheWrapper → List Key →
    Option (CoveredCacheWrapper × List (Key × Value))
  | w, [] => some (w, [])
  | w, key :: rest => do
      let result ← w.evictVictim key
      let (w', value) ← result.toOption
      let (w'', victims) ← evictVictims w' rest
      return (w'', (key, value) :: victims)

/-- `CacheWrapper::evict` as a whole. -/
def evict (w : CoveredCacheWrapper) (requiredSize : Nat) :
    Option (CoveredCacheWrapper × List (Key × Value)) := do
  let selected ← w.selectVictims requiredSize
  let keys ← selected.toOption
  let (w', victims) ← w.evictVictims keys
  return (w'.eraseBeaconEdgeidxs (victims.map Prod.fst), victims)

/-! ## What the functions do to the three maps -/

variable {w w' : CoveredCacheWrapper} {key : Key} {value : Value} {rank : Nat}

theorem find_validateKey (w : CoveredCacheWrapper) (key : Key) (isValid : Bool) :
    (w.validateKey key isValid).validityMap.find =
      Function.update w.validityMap.find key (some ⟨isValid⟩) := by
  cases isValid with
  | true => exact ValidityMap.find_validate w.validityMap key
  | false => exact ValidityMap.find_invalidate w.validityMap key

/-- The pairs and the maps are the same; the metadata of the local cache may differ. -/
structure SameMaps (w w' : CoveredCacheWrapper) : Prop where
  find : w'.localCache.find = w.localCache.find
  flags : w'.validityMap = w.validityMap
  beacons : w'.perkeyBeaconEdgeidx = w.perkeyBeaconEdgeidx

theorem get_spec {result : Option Value} (h : w.get key rank = some (w', result)) :
    SameMaps w w' ∧
      result = if w.isValidKeyForLocalCachedObject key then w.localCache.find key else none := by
  simp only [get, bind_eq_some_iff, pure_eq_some_iff, Prod.mk.injEq] at h
  obtain ⟨⟨localCache, value⟩, hget, rfl, rfl⟩ := h
  obtain ⟨rfl, rfl | ⟨-, rfl⟩⟩ := getLocalCache_spec hget
  · exact ⟨⟨rfl, rfl, rfl⟩, rfl⟩
  · exact ⟨⟨rfl, rfl, rfl⟩, rfl⟩

/-- The value of a cached key is replaced or kept, and its flag says which. -/
structure UpdatedKey (w w' : CoveredCacheWrapper) (key : Key) (value : Value)
    (isSuccessful : Bool) : Prop where
  cached : (w.localCache.find key).isSome = true
  find : w'.localCache.find =
    if isSuccessful then Function.update w.localCache.find key (some value) else w.localCache.find
  flags : w'.validityMap.find = Function.update w.validityMap.find key (some ⟨isSuccessful⟩)
  beacons : w'.perkeyBeaconEdgeidx = w.perkeyBeaconEdgeidx

variable {isSuccessful : Bool}

variable {localCache : CoveredLocalCache}

/-- What the local cache and the validity flag are after an update of a cached key. -/
theorem updatedKey_of_updateLocalCache
    (h : w.localCache.updateLocalCache key value rank = some (localCache, true, isSuccessful)) :
    UpdatedKey w (({ w with localCache } : CoveredCacheWrapper).validateKey key isSuccessful) key
      value isSuccessful := by
  obtain ⟨hcached, ⟨rfl, rfl⟩ | ⟨rfl, -, hfind, -⟩⟩ := updateLocalCache_spec h
  · exact ⟨hcached.symm, rfl, find_validateKey _ key false, rfl⟩
  · exact ⟨hcached.symm, hfind, find_validateKey _ key true, rfl⟩

/-- An update of a key that is not cached changes nothing. -/
theorem sameMaps_of_updateLocalCache
    (h : w.localCache.updateLocalCache key value rank = some (localCache, false, isSuccessful)) :
    w.isLocalCached key = false ∧ SameMaps w { w with localCache } := by
  obtain ⟨hcached, ⟨-, rfl⟩ | ⟨-, hsome, -⟩⟩ := updateLocalCache_spec h
  · exact ⟨hcached.symm, rfl, rfl, rfl⟩
  · rw [hsome] at hcached
    cases hcached

theorem update_spec {isLocalCached : Bool}
    (h : w.update key value rank = some (w', isLocalCached)) :
    (isLocalCached = false ∧ w.isLocalCached key = false ∧ SameMaps w w') ∨
      (isLocalCached = true ∧ ∃ isSuccessful, UpdatedKey w w' key value isSuccessful) := by
  simp only [update, bind_eq_some_iff] at h
  obtain ⟨⟨localCache, cached, isSuccessful⟩, hupdate, h⟩ := h
  cases cached with
  | true =>
    rw [if_pos rfl] at h
    cases h
    exact .inr ⟨rfl, isSuccessful, updatedKey_of_updateLocalCache hupdate⟩
  | false =>
    rw [if_neg Bool.false_ne_true] at h
    obtain ⟨-, h⟩ := require_bind_iff.1 h
    cases h
    obtain ⟨hcached, hsame⟩ := sameMaps_of_updateLocalCache hupdate
    exact .inl ⟨rfl, hcached, hsame⟩

theorem updateIfInvalidForGetrsp_spec {isInvalid : Bool}
    (h : w.updateIfInvalidForGetrsp key value rank = some (w', isInvalid)) :
    (isInvalid = false ∧ SameMaps w w' ∧
        (w.isLocalCached key = true → w.isValidKeyForLocalCachedObject key = true)) ∨
      (isInvalid = true ∧ w.isValidKeyForLocalCachedObject key = false ∧
        ∃ isSuccessful, UpdatedKey w w' key value isSuccessful) := by
  rw [updateIfInvalidForGetrsp] at h
  cases hcached : w.isLocalCached key with
  | true =>
    cases hvalid : w.isValidKeyForLocalCachedObject key with
    | true =>
      simp only [hcached, hvalid, if_true] at h
      cases h
      exact .inl ⟨rfl, ⟨rfl, rfl, rfl⟩, fun _ => rfl⟩
    | false =>
      simp only [hcached, hvalid, if_true, Bool.false_eq_true, if_false,
        bind_eq_some_iff (x := w.localCache.updateLocalCache _ _ _)] at h
      obtain ⟨⟨localCache, cached, isSuccessful⟩, hupdate, h⟩ := h
      obtain ⟨rfl, h⟩ := require_bind_iff.1 h
      cases h
      exact .inr ⟨rfl, rfl, isSuccessful, updatedKey_of_updateLocalCache hupdate⟩
  | false =>
    simp only [hcached, Bool.false_eq_true, if_false,
      bind_eq_some_iff (x := w.localCache.updateLocalCache _ _ _)] at h
    obtain ⟨⟨localCache, cached, isSuccessful⟩, hupdate, h⟩ := h
    obtain ⟨rfl, h⟩ := require_bind_iff.1 h
    obtain ⟨-, h⟩ := require_bind_iff.1 h
    cases h
    obtain ⟨-, hsame⟩ := sameMaps_of_updateLocalCache hupdate
    exact .inl ⟨rfl, hsame, fun hc => by cases hc⟩

/-- The pair is stored if the key was not cached; the flag is set in any case. -/
structure AdmittedKey (w w' : CoveredCacheWrapper) (key : Key) (value : Value) (isValid : Bool) :
    Prop where
  find : w'.localCache.find =
    Function.update w.localCache.find key (some ((w.localCache.find key).getD value))
  flags : w'.validityMap.find = Function.update w.validityMap.find key (some ⟨isValid⟩)
  beacons : ∀ k, (w'.perkeyBeaconEdgeidx.lookup k).isSome =
    (decide (k = key) || (w.perkeyBeaconEdgeidx.lookup k).isSome)

theorem isSome_lookup_noted (map : UnorderedMap Key Nat) (key k : Key) (beaconEdgeidx : Nat) :
    ((if (map.lookup key).isNone then map.insert key beaconEdgeidx else map).lookup k).isSome =
      (decide (k = key) || (map.lookup k).isSome) := by
  by_cases hk : k = key
  · subst hk
    cases hlookup : map.lookup k with
    | none => simp
    | some b => simp [hlookup]
  · rw [decide_eq_false hk, Bool.false_or]
    split
    · rw [UnorderedMap.lookup_insert_eq, if_neg hk]
    · rfl

variable {isValid : Bool}

theorem admitObject_spec {beaconEdgeidx : Nat}
    (h : w.admitObject key value isValid beaconEdgeidx rank = some w') :
    AdmittedKey w w' key value isValid := by
  simp only [admitObject, bind_eq_some_iff] at h
  obtain ⟨⟨localCache, isSuccessful⟩, hadmitted, h⟩ := h
  obtain ⟨rfl, hlocal⟩ := admitLocalCache_spec hadmitted
  rw [if_pos rfl] at h
  cases h
  refine ⟨?_, find_validateKey _ key isValid,
    fun k => isSome_lookup_noted w.perkeyBeaconEdgeidx key k beaconEdgeidx⟩
  obtain ⟨hcached, rfl⟩ | ⟨hnone, hfind, -⟩ := hlocal
  · obtain ⟨v, hv⟩ := Option.isSome_iff_exists.1 hcached
    rw [hv, Option.getD_some, ← hv]
    exact (Function.update_eq_self key w.localCache.find).symm
  · rw [hnone]
    exact hfind

/-- A victim leaves the local cache and the validity map. -/
structure EvictedKey (w w' : CoveredCacheWrapper) (key : Key) (value : Value) : Prop where
  value : w.localCache.find key = some value
  flag : w.validityMap.isExist key = true
  find : w'.localCache.find = Function.update w.localCache.find key none
  flags : w'.validityMap.find = Function.update w.validityMap.find key none
  beacons : w'.perkeyBeaconEdgeidx = w.perkeyBeaconEdgeidx

theorem evictVictim_spec {result : Except EvictionExit (CoveredCacheWrapper × Value)}
    (h : w.evictVictim key = some result) :
    (∃ w' value, result = .ok (w', value) ∧ EvictedKey w w' key value) ∨
      (result = .error (.notInLocalCache key) ∧ w.isLocalCached key = false) ∨
      (result = .error (.notInValidityMap key) ∧ w.validityMap.isExist key = false) := by
  simp only [evictVictim, bind_eq_some_iff] at h
  obtain ⟨⟨localCache, victim⟩, hevict, h⟩ := h
  obtain ⟨rfl, hfind, -⟩ := evictLocalCacheWithGivenKey_spec hevict
  cases hvictim : w.localCache.find key with
  | none =>
    simp only [hvictim] at h
    cases h
    refine .inr (.inl ⟨rfl, ?_⟩)
    rw [isLocalCached, CoveredLocalCache.isLocalCached, hvictim]
    rfl
  | some value =>
    simp only [hvictim, pure_eq_some_iff] at h
    have hexist : (w.validityMap.eraseFlagForKey key).2 = w.validityMap.isExist key :=
      ConcurrentHashtable.eraseIfExist_snd w.validityMap key
    rw [hexist] at h
    cases hflag : w.validityMap.isExist key with
    | true =>
      rw [hflag, if_pos rfl] at h
      refine .inl ⟨_, value, h.symm, hvictim, hflag, hfind, ?_, rfl⟩
      exact ConcurrentHashtable.find_eraseIfExist w.validityMap key
    | false =>
      rw [hflag, if_neg Bool.false_ne_true] at h
      exact .inr (.inr ⟨h.symm, rfl⟩)

theorem selectVictims_spec {requiredSize : Nat} {result : Except EvictionExit (List Key)}
    (h : w.selectVictims requiredSize = some result) :
    (result = .error .noVictimKey ∧ requiredSize = 0) ∨
      ∃ keys, result = .ok keys ∧ keys.Nodup ∧ ∀ k ∈ keys, w.isLocalCached k = true := by
  simp only [selectVictims, bind_eq_some_iff, pure_eq_some_iff] at h
  obtain ⟨keys, hkeys, rfl⟩ := h
  obtain ⟨hnodup, hcached, hne⟩ := getLocalCacheVictimKeys_spec hkeys
  by_cases hnil : keys = []
  · rw [if_pos hnil]
    exact .inl ⟨rfl, Nat.eq_zero_of_not_pos fun hpos => hne hpos hnil⟩
  · rw [if_neg hnil]
    exact .inr ⟨keys, rfl, hnodup, hcached⟩

theorem lookup_eraseBeaconEdgeidxs (w : CoveredCacheWrapper) (victims : List Key) (k : Key) :
    (w.eraseBeaconEdgeidxs victims).perkeyBeaconEdgeidx.lookup k =
      if k ∈ victims then none else w.perkeyBeaconEdgeidx.lookup k := by
  rw [eraseBeaconEdgeidxs]
  generalize w.perkeyBeaconEdgeidx = map
  induction victims generalizing map with
  | nil => simp
  | cons victim rest ih =>
    rw [List.foldl_cons, ih, UnorderedMap.lookup_erase_eq]
    by_cases hrest : k ∈ rest
    · rw [if_pos hrest, if_pos (List.mem_cons_of_mem victim hrest)]
    · rw [if_neg hrest]
      simp only [List.mem_cons, hrest, or_false]

/-! ## The object of a key -/

/-- The value of a cached key, and whether it is valid. -/
def object (w : CoveredCacheWrapper) (key : Key) : Option (Value × Bool) :=
  (w.localCache.find key).map fun value => (value, w.isValidKeyForLocalCachedObject key)

theorem isValidKey_eq (w : CoveredCacheWrapper) (key : Key) :
    w.isValidKeyForLocalCachedObject key =
      ((w.validityMap.find key).map ValidityFlag.isValidFlag).getD false := rfl

theorem SameMaps.object (h : SameMaps w w') : w'.object = w.object := by
  funext k
  simp only [CoveredCacheWrapper.object, isValidKey_eq, h.find, h.flags]

/-- Maps that differ at one key only differ in its object only. -/
theorem object_update {find' : Option Value} {flag' : Option ValidityFlag}
    (hfind : w'.localCache.find = Function.update w.localCache.find key find')
    (hflags : w'.validityMap.find = Function.update w.validityMap.find key flag') :
    w'.object = Function.update w.object key
      (find'.map fun value => (value, (flag'.map ValidityFlag.isValidFlag).getD false)) := by
  funext k
  simp only [CoveredCacheWrapper.object, isValidKey_eq, hfind, hflags, Function.update_apply]
  by_cases hk : k = key
  · simp only [if_pos hk]
  · simp only [if_neg hk]

theorem UpdatedKey.object (h : UpdatedKey w w' key value isSuccessful) :
    ∃ original flag, w.object key = some (original, flag) ∧ w'.object =
      Function.update w.object key
        (some (if isSuccessful then value else original, isSuccessful)) := by
  obtain ⟨original, horiginal⟩ := Option.isSome_iff_exists.1 h.cached
  refine ⟨original, w.isValidKeyForLocalCachedObject key, ?_, ?_⟩
  · rw [CoveredCacheWrapper.object, horiginal]
    rfl
  · have hfind : w'.localCache.find = Function.update w.localCache.find key
        (some (if isSuccessful then value else original)) := by
      rw [h.find]
      cases isSuccessful with
      | true => rfl
      | false => exact (Function.update_eq_self_iff.2 horiginal.symm).symm
    exact object_update hfind h.flags

theorem AdmittedKey.object (h : AdmittedKey w w' key value isValid) :
    w'.object = Function.update w.object key
      (some ((w.localCache.find key).getD value, isValid)) :=
  object_update h.find h.flags

theorem EvictedKey.object (h : EvictedKey w w' key value) :
    w'.object = Function.update w.object key none :=
  object_update h.find h.flags

theorem object_invalidate (w : CoveredCacheWrapper) (key : Key) :
    (w.invalidateKeyForLocalCachedObject key).object =
      Function.update w.object key ((w.object key).map fun o => (o.1, false)) := by
  have hfind : (w.invalidateKeyForLocalCachedObject key).localCache.find =
      Function.update w.localCache.find key (w.localCache.find key) :=
    (Function.update_eq_self key w.localCache.find).symm
  rw [object_update hfind (find_validateKey w key false), CoveredCacheWrapper.object,
    Option.map_map]
  rfl

theorem object_eraseBeaconEdgeidxs (w : CoveredCacheWrapper) (victims : List Key) :
    (w.eraseBeaconEdgeidxs victims).object = w.object := rfl

end CoveredCacheWrapper

end Covered.Cache
