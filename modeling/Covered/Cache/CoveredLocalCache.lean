import Mathlib.Algebra.BigOperators.Group.List.Basic
import Covered.Cache.CacheWrapper

/-!
# The COVERED local cache

The key-value pairs of an edge and the metadata of its cached keys. Which of the cached keys have
the least reward is the decision of the metadata; here it is a ranking of the keys, and an operation
that adds a key or touches its metadata gets the rank that the key has afterwards. The metadata of
uncached keys does not matter to what is cached and is left out.

The sizes are those of the source: an object size is an unsigned 32-bit number.
-/

set_option autoImplicit false

namespace Covered.Cache

open Common Lib Lib.Checked Function

/-- The keys of the local cached metadata, the least reward first. -/
structure LocalCachedMetadata where
  ranking : List Key := []

namespace LocalCachedMetadata

def removeForExistingKey (m : LocalCachedMetadata) (key : Key) : LocalCachedMetadata :=
  ⟨m.ranking.erase key⟩

def addForNewKey (m : LocalCachedMetadata) (key : Key) (rank : Nat) : LocalCachedMetadata :=
  ⟨m.ranking.take rank ++ key :: m.ranking.drop rank⟩

/-- An update of the statistics of a tracked key moves it to its new rank. -/
def updateStatsForExistingKey (m : LocalCachedMetadata) (key : Key) (rank : Nat) :
    LocalCachedMetadata :=
  (m.removeForExistingKey key).addForNewKey key rank

end LocalCachedMetadata

/-- The cached pairs, their bytes and the metadata of the cached keys. -/
structure CoveredLocalCache where
  capacityBytes : Nat
  coveredCache : UnorderedMap Key Value := ∅
  internalKvbytes : Nat := 0
  localCachedMetadata : LocalCachedMetadata := {}

namespace CoveredLocalCache

def find (c : CoveredLocalCache) (key : Key) : Option Value := c.coveredCache.lookup key

def isLocalCached (c : CoveredLocalCache) (key : Key) : Bool := (c.find key).isSome

def isValidObjsize (c : CoveredLocalCache) (key : Key) (value : Value) : Bool :=
  decide (c.capacityBytes > objectSize key value)

/-- The metadata after a cached key was read or updated. -/
def touch (c : CoveredLocalCache) (key : Key) (rank : Nat) : CoveredLocalCache :=
  { c with localCachedMetadata := c.localCachedMetadata.updateStatsForExistingKey key rank }

/-- Read a key, as `getLocalCache` and `getLocalCache_p2p` do. -/
def getLocalCache (c : CoveredLocalCache) (key : Key) (rank : Nat) :
    Option (CoveredLocalCache × Option Value) :=
  match c.find key with
  | some value => do
      require (c.isValidObjsize key value = true)
      return (c.touch key rank, some value)
  | none => some (c, none)

/-- The bytes of the pairs after the value of a pair was replaced. -/
def updatedKvbytes (c : CoveredLocalCache) (original value : Value) : Option Nat :=
  if original.valuesize < value.valuesize then
    uint64Add c.internalKvbytes (value.valuesize - original.valuesize)
  else if original.valuesize > value.valuesize then
    some (uint64Minus c.internalKvbytes (original.valuesize - value.valuesize))
  else some c.internalKvbytes

/-- Replace the value of a cached key, if the new one is small enough. Returns whether the key is
cached and whether the value was replaced. -/
def updateLocalCache (c : CoveredLocalCache) (key : Key) (value : Value) (rank : Nat) :
    Option (CoveredLocalCache × Bool × Bool) :=
  match c.find key with
  | some original =>
      if c.isValidObjsize key value then do
        let kvbytes ← c.updatedKvbytes original value
        return ({ c.touch key rank with
          coveredCache := c.coveredCache.insert key value
          internalKvbytes := kvbytes }, true, true)
      else some (c, true, false)
  | none => some (c, false, false)

/-- Admit a pair. A key that is already cached keeps its value, and the admission counts as
successful. -/
def admitLocalCache (c : CoveredLocalCache) (key : Key) (value : Value) (rank : Nat) :
    Option (CoveredLocalCache × Bool) := do
  require (c.isValidObjsize key value = true)
  match c.find key with
  | some _ => return (c, true)
  | none =>
      let kvbytes ← uint64Add c.internalKvbytes (objectSize key value)
      return ({ c with
        coveredCache := c.coveredCache.insert key value
        internalKvbytes := kvbytes
        localCachedMetadata := c.localCachedMetadata.addForNewKey key rank }, true)

/-- The loop of `getLocalCacheVictimKeys` over the ranking: keys of least reward, until their sizes
cover the required size. The process ends if the ranking is used up before. -/
def collectVictimKeys (c : CoveredLocalCache) (requiredSize : Nat) :
    List Key → Nat → List Key → Option (List Key)
  | [], total, keys => if total < requiredSize then none else some keys
  | key :: rest, total, keys =>
      if total < requiredSize then
        if keys.contains key then c.collectVictimKeys requiredSize rest total keys
        else do
          let value ← c.find key
          c.collectVictimKeys requiredSize rest (total + objectSize key value) (keys ++ [key])
      else some keys

/-- The victim keys for a required size, whose objects have to be valid. -/
def getLocalCacheVictimKeys (c : CoveredLocalCache) (requiredSize : Nat) : Option (List Key) := do
  let keys ← c.collectVictimKeys requiredSize c.localCachedMetadata.ranking 0 []
  require (∀ key ∈ keys, ∀ value ∈ c.find key, c.isValidObjsize key value = true)
  return keys

/-- Evict one key; returns its value if the key was cached. -/
def evictLocalCacheWithGivenKey (c : CoveredLocalCache) (key : Key) :
    Option (CoveredLocalCache × Option Value) :=
  match c.find key with
  | some value => do
      require (c.isValidObjsize key value = true)
      return ({ c with
        coveredCache := c.coveredCache.erase key
        internalKvbytes := uint64Minus c.internalKvbytes (objectSize key value)
        localCachedMetadata := c.localCachedMetadata.removeForExistingKey key }, some value)
  | none => some (c, none)

/-! ## What the operations store -/

variable {c c' : CoveredLocalCache} {key : Key} {value : Value} {rank : Nat}

theorem getLocalCache_spec {result : Option Value}
    (h : c.getLocalCache key rank = some (c', result)) :
    result = c.find key ∧ (c' = c ∨ (c.find key).isSome = true ∧ c' = c.touch key rank) := by
  rw [getLocalCache] at h
  cases hfind : c.find key with
  | none =>
    rw [hfind] at h
    cases h
    exact ⟨rfl, .inl rfl⟩
  | some v =>
    simp only [hfind, require_bind_iff, pure_eq_some_iff, Prod.mk.injEq] at h
    obtain ⟨-, rfl, rfl⟩ := h
    exact ⟨rfl, .inr ⟨rfl, rfl⟩⟩

/-- An update leaves the cache alone or replaces the value of a cached key. -/
theorem updateLocalCache_spec {isLocalCached isSuccessful : Bool}
    (h : c.updateLocalCache key value rank = some (c', isLocalCached, isSuccessful)) :
    isLocalCached = (c.find key).isSome ∧
      ((isSuccessful = false ∧ c' = c) ∨
        (isSuccessful = true ∧ (c.find key).isSome = true ∧
          c'.find = update c.find key (some value) ∧
          c'.localCachedMetadata = c.localCachedMetadata.updateStatsForExistingKey key rank)) := by
  rw [updateLocalCache] at h
  cases hfind : c.find key with
  | none =>
    rw [hfind] at h
    cases h
    exact ⟨rfl, .inl ⟨rfl, rfl⟩⟩
  | some original =>
    simp only [hfind] at h
    by_cases hsize : c.isValidObjsize key value = true
    · simp only [if_pos hsize, bind_eq_some_iff, pure_eq_some_iff, Prod.mk.injEq] at h
      obtain ⟨kvbytes, -, rfl, rfl, rfl⟩ := h
      refine ⟨rfl, .inr ⟨rfl, rfl, ?_, rfl⟩⟩
      funext k
      rw [update_apply]
      exact UnorderedMap.lookup_insert_eq c.coveredCache k key value
    · rw [if_neg hsize] at h
      cases h
      exact ⟨rfl, .inl ⟨rfl, rfl⟩⟩

/-- An admission is successful, and only a key that was not cached gets the value. -/
theorem admitLocalCache_spec {isSuccessful : Bool}
    (h : c.admitLocalCache key value rank = some (c', isSuccessful)) :
    isSuccessful = true ∧
      (((c.find key).isSome = true ∧ c' = c) ∨
        (c.find key = none ∧ c'.find = update c.find key (some value) ∧
          c'.localCachedMetadata = c.localCachedMetadata.addForNewKey key rank)) := by
  obtain ⟨-, h⟩ := require_bind_iff.1 h
  cases hfind : c.find key with
  | some v =>
    rw [hfind] at h
    cases h
    exact ⟨rfl, .inl ⟨rfl, rfl⟩⟩
  | none =>
    simp only [hfind, bind_eq_some_iff, pure_eq_some_iff, Prod.mk.injEq] at h
    obtain ⟨kvbytes, -, rfl, rfl⟩ := h
    refine ⟨rfl, .inr ⟨rfl, ?_, rfl⟩⟩
    funext k
    rw [update_apply]
    exact UnorderedMap.lookup_insert_eq c.coveredCache k key value

theorem evictLocalCacheWithGivenKey_spec {result : Option Value}
    (h : c.evictLocalCacheWithGivenKey key = some (c', result)) :
    result = c.find key ∧ c'.find = update c.find key none ∧
      (c' = c ∧ c.find key = none ∨
        c'.localCachedMetadata = c.localCachedMetadata.removeForExistingKey key) := by
  rw [evictLocalCacheWithGivenKey] at h
  cases hfind : c.find key with
  | none =>
    rw [hfind] at h
    cases h
    exact ⟨rfl, (update_eq_self_iff.2 hfind.symm).symm, .inl ⟨rfl, rfl⟩⟩
  | some v =>
    simp only [hfind, require_bind_iff, pure_eq_some_iff, Prod.mk.injEq] at h
    obtain ⟨-, rfl, rfl⟩ := h
    refine ⟨rfl, ?_, .inr rfl⟩
    funext k
    rw [update_apply]
    exact UnorderedMap.lookup_erase_eq c.coveredCache k key

theorem isSome_update_of_cached (hcached : (c.find key).isSome = true) (k : Key) :
    (update c.find key (some value) k).isSome = (c.find k).isSome := by
  rw [update_apply]
  by_cases hk : k = key
  · rw [if_pos hk, hk, hcached]
    rfl
  · rw [if_neg hk]

/-! ## Victims -/

variable {requiredSize : Nat} {victims : List Key}

/-- The victims are different, and each new one comes from the ranking and is cached. -/
theorem collectVictimKeys_spec {ranking keys : List Key} {total : Nat}
    (h : c.collectVictimKeys requiredSize ranking total keys = some victims) (hnodup : keys.Nodup)
    (hcached : ∀ k ∈ keys, (c.find k).isSome = true) :
    victims.Nodup ∧ ∀ k ∈ victims, (c.find k).isSome = true := by
  induction ranking generalizing total keys with
  | nil =>
    rw [collectVictimKeys] at h
    split at h <;> cases h
    exact ⟨hnodup, hcached⟩
  | cons key rest ih =>
    rw [collectVictimKeys] at h
    split at h
    · split at h
      · exact ih h hnodup hcached
      · next hnew =>
        simp only [bind_eq_some_iff] at h
        obtain ⟨value, hvalue, h⟩ := h
        apply ih h
        · rw [List.nodup_append]
          refine ⟨hnodup, List.nodup_singleton key, fun a ha b hb hab => hnew ?_⟩
          rw [List.mem_singleton] at hb
          rwa [List.contains_iff_mem, ← hb, ← hab]
        · intro k hk
          rcases List.mem_append.1 hk with hk | hk
          · exact hcached k hk
          · rw [List.mem_singleton.1 hk, hvalue]
            rfl
    · cases h
      exact ⟨hnodup, hcached⟩

/-- A positive size needs at least one victim. -/
theorem collectVictimKeys_ne_nil {ranking keys : List Key} {total : Nat}
    (h : c.collectVictimKeys requiredSize ranking total keys = some victims)
    (hpending : total < requiredSize ∨ keys ≠ []) : victims ≠ [] := by
  induction ranking generalizing total keys with
  | nil =>
    rw [collectVictimKeys] at h
    split at h
    · cases h
    · next hdone =>
      cases h
      exact hpending.resolve_left hdone
  | cons key rest ih =>
    rw [collectVictimKeys] at h
    split at h
    · next htotal =>
      split at h
      · exact ih h (.inl htotal)
      · simp only [bind_eq_some_iff] at h
        obtain ⟨value, -, h⟩ := h
        exact ih h (.inr (List.append_ne_nil_of_right_ne_nil _ (List.cons_ne_nil _ _)))
    · next hdone =>
      cases h
      exact hpending.resolve_left hdone

theorem getLocalCacheVictimKeys_spec (h : c.getLocalCacheVictimKeys requiredSize = some victims) :
    victims.Nodup ∧ (∀ k ∈ victims, (c.find k).isSome = true) ∧
      (0 < requiredSize → victims ≠ []) := by
  simp only [getLocalCacheVictimKeys, bind_eq_some_iff, pure_eq_some_iff] at h
  obtain ⟨_, hkeys, -, -, rfl⟩ := h
  obtain ⟨hnodup, hcached⟩ := collectVictimKeys_spec hkeys List.nodup_nil fun _ hk => by cases hk
  exact ⟨hnodup, hcached, fun hpos => collectVictimKeys_ne_nil hkeys (.inl hpos)⟩

end CoveredLocalCache

end Covered.Cache
