import Covered.Cache.LocalCache
import Covered.Cache.TrackedSizes

/-!
# A key is in one container, with one size

`Aligned` says that a key is in at most one of the cached store, the metadata of uncached keys and
the small LRU cache, that the metadata of the cached keys has exactly the keys of the store with the
sizes of their objects, and that the byte counter is the sum of these sizes. The invariant behind
it, `Sizes`, has the tracked sizes of the uncached keys too, since an operation on an uncached key
asserts them.

An update can abort: a new key whose metadata alone exceeds the budget of the small LRU cache is
dropped again while it is added, but its reward still moves it to the metadata of uncached keys,
where its size is asked for. `Meets` is the condition under which no operation aborts.
-/

set_option autoImplicit false

namespace Covered.Cache

open Common Lib Lib.Checked Lib.Execution UnorderedMap Function Option

/-! ## Sizes of objects -/

/-- The bytes of a key and its value. -/
def pairSize (key : Key) (value : Value) : Nat := key.getKeyLength + value.valuesize

/-- An object of a key can have this size: it has the bytes of the key, and some bytes, and fits
into 32 bits. -/
structure FitsSize (key : Key) (n : Nat) : Prop where
  key_le : key.getKeyLength ≤ n
  ne_zero : n ≠ 0
  lt : n < 2 ^ 32

/-- An object has bytes, and not more than fit into 32 bits. -/
def Fits (key : Key) (value : Value) : Prop := pairSize key value ≠ 0 ∧ pairSize key value < 2 ^ 32

instance (key : Key) (value : Value) : Decidable (Fits key value) :=
  inferInstanceAs (Decidable (_ ∧ _))

variable {key : Key} {value : Value}

theorem Fits.size (h : Fits key value) :
    FitsSize key (pairSize key value) := ⟨Nat.le_add_right _ _, h.1, h.2⟩

theorem Fits.objectSize_eq (h : Fits key value) :
    objectSize key value = pairSize key value := Nat.mod_eq_of_lt h.2

theorem Fits.objectSize_ne_zero (h : Fits key value) :
    objectSize key value ≠ 0 := h.objectSize_eq ▸ h.1

/-- The value with the rest of the bytes makes up the object again. -/
theorem FitsSize.objectSize_eq {n : Nat} (h : FitsSize key n) :
    objectSize key (valueOfObjectSize key n) = n := by
  have hvalue : (valueOfObjectSize key n).valuesize = n - key.getKeyLength :=
    if_pos h.key_le
  rw [objectSize, hvalue, Nat.add_sub_cancel' h.key_le, Nat.mod_eq_of_lt h.lt]

/-! ## Places of keys -/

/-- A key with its sizes in the three containers is in at most one of them. -/
inductive Placed (key : Key) : Option Nat → Option Nat → Option Nat → Prop
  | nowhere : Placed key none none none
  | cached {n : Nat} (hn : FitsSize key n) : Placed key (some n) none none
  | uncached {n : Nat} (hn : FitsSize key n) : Placed key none (some n) none
  | lru {n : Nat} (hn : FitsSize key n) : Placed key none none (some n)

namespace Placed

variable {key : Key} {a b d : Option Nat} {n : Nat}

theorem fits_cached (h : Placed key (some n) b d) : FitsSize key n := by
  cases h with
  | cached hn => exact hn

theorem fits_uncached (h : Placed key a (some n) d) : FitsSize key n := by
  cases h with
  | uncached hn => exact hn

theorem fits_lru (h : Placed key a b (some n)) : FitsSize key n := by
  cases h with
  | lru hn => exact hn

theorem of_cached (h : Placed key (some n) b d) : b = none ∧ d = none := by
  cases h with
  | cached hn => exact ⟨rfl, rfl⟩

theorem of_uncached (h : Placed key a (some n) d) : a = none ∧ d = none := by
  cases h with
  | uncached hn => exact ⟨rfl, rfl⟩

theorem of_lru (h : Placed key a b (some n)) : a = none ∧ b = none := by
  cases h with
  | lru hn => exact ⟨rfl, rfl⟩

theorem drop_uncached {b' : Option Nat} (h : Placed key a b d) (hb : b' = b ∨ b' = none) :
    Placed key a b' d := by
  rcases hb with rfl | rfl
  · exact h
  · cases h with
    | nowhere => exact .nowhere
    | cached hn => exact .cached hn
    | uncached hn => exact .nowhere
    | lru hn => exact .lru hn

theorem drop_lru {d' : Option Nat} (h : Placed key a b d) (hd : d' = d ∨ d' = none) :
    Placed key a b d' := by
  rcases hd with rfl | rfl
  · exact h
  · cases h with
    | nowhere => exact .nowhere
    | cached hn => exact .cached hn
    | uncached hn => exact .uncached hn
    | lru hn => exact .nowhere

end Placed

/-- Other sizes of one key. -/
theorem placed_of_update {f g h f' g' h' : Key → Option Nat} (key : Key)
    (hplaced : ∀ k, Placed k (f k) (g k) (h k)) (hkey : Placed key (f' key) (g' key) (h' key))
    (hother : ∀ k, k ≠ key → f' k = f k ∧ g' k = g k ∧ h' k = h k) (k : Key) :
    Placed k (f' k) (g' k) (h' k) := by
  by_cases hk : k = key
  · rw [hk]
    exact hkey
  · obtain ⟨hf, hg, hh⟩ := hother k hk
    rw [hf, hg, hh]
    exact hplaced k

namespace LocalCache

/-! ## The property -/

/-- A key is in at most one container, and the metadata of the cached keys is that of the store. -/
structure Aligned (c : LocalCache) : Prop where
  cached_disjoint : ∀ key value, c.coveredCache.lookup key = some value →
    c.localUncachedMetadata.isKeyExist key = false ∧ c.localUncachedLru.isKeyExist key = false
  uncached_disjoint : ∀ key, c.localUncachedMetadata.isKeyExist key = true →
    c.localUncachedLru.isKeyExist key = false
  keys : ∀ key, c.localCachedMetadata.isKeyExist key = (c.coveredCache.lookup key).isSome
  sizes : ∀ key value, c.coveredCache.lookup key = some value →
    c.localCachedMetadata.getObjectSize key = some (key.getKeyLength + value.valuesize)
  kvbytes : c.internalKvbytes =
    c.coveredCache.sumBy fun key value => key.getKeyLength + value.valuesize

/-! ## The condition -/

/-- The byte count of the metadata of uncached keys has room for a key. -/
def HasRoom (c : LocalCache) (key : Key) : Prop :=
  (c.localUncachedMetadata.getSizeForCapacity false).any (fun bytes =>
    decide (bytes + TrackedKeys.newKeyBytes HomoKeyLevelMetadata key < uint64Limit)) = true

/-- The byte count of the small LRU cache has room for a key. -/
def HasRoomInLru (c : LocalCache) (key : Key) : Prop :=
  c.localUncachedLru.getSizeForCapacity.any (fun bytes =>
    decide (bytes + LruRecords.lruKeyBytes key < uint64Limit)) = true

/-- The small LRU cache keeps a new key, or the reward of the key does not move it on. -/
def StaysTracked (c : LocalCache) (edge : EdgeContext) (key : Key) (value : Value)
    (isGlobalCached : Bool) : Prop :=
  LruRecords.lruKeyBytes key ≤ c.maxBytesForLocalUncachedLru ∨
    LruRecords.newReward edge key value isGlobalCached ≤ 0 ∨
    c.exceedsLeastReward (LruRecords.newReward edge key value isGlobalCached) = false

/-- What an update of a key that is not cached needs. -/
def UpdateUncachedMeets (c : LocalCache) (edge : EdgeContext) (key : Key) (value : Value)
    (isGetrsp isGlobalCached : Bool) : Prop :=
  if c.localUncachedMetadata.isKeyExist key then isGetrsp = false → Fits key value
  else if c.localUncachedLru.isKeyExist key then
    (isGetrsp = false → Fits key value) ∧ c.HasRoom key
  else
    Fits key value ∧ c.HasRoom key ∧ c.HasRoomInLru key ∧
      c.StaysTracked edge key value isGlobalCached

/-- The condition on an operation: objects that are tracked or cached have bytes, and their sizes
and the byte counts do not overflow; an admitted object could be cached, which the callers promise;
and a new uncached key stays in the small LRU cache if its reward moves it on. -/
def Meets (c : LocalCache) : LocalCacheOperation → Prop
  | .getLocalCache _ key isRedirected =>
      isRedirected = false → c.localUncachedLru.isKeyExist key = true → c.HasRoom key
  | .updateLocalCache edge key value isGetrsp isGlobalCached =>
      c.isValidObjsize key value = true →
        (∀ originalValue ∈ c.coveredCache.lookup key, Fits key value ∧
          c.internalKvbytes + (value.valuesize - originalValue.valuesize) < uint64Limit) ∧
        (c.coveredCache.lookup key = none →
          c.UpdateUncachedMeets edge key value isGetrsp isGlobalCached)
  | .admitLocalCache _ key value _ =>
      c.isValidObjsize key value = true ∧
        (c.coveredCache.lookup key = none → Fits key value ∧
          c.internalKvbytes + pairSize key value < uint64Limit)
  | .getLocalCacheP2p _ _ _ => True
  | .evictLocalCacheWithGivenKey _ => True
  | .updateIsNeighborCached _ _ => True

instance (c : LocalCache) (key : Key) : Decidable (c.HasRoom key) :=
  inferInstanceAs (Decidable (_ = true))

instance (c : LocalCache) (key : Key) : Decidable (c.HasRoomInLru key) :=
  inferInstanceAs (Decidable (_ = true))

instance (c : LocalCache) (edge : EdgeContext) (key : Key) (value : Value) (isGlobalCached : Bool) :
    Decidable (c.StaysTracked edge key value isGlobalCached) :=
  inferInstanceAs (Decidable (_ ∨ _ ∨ _))

instance (c : LocalCache) (edge : EdgeContext) (key : Key) (value : Value)
    (isGetrsp isGlobalCached : Bool) :
    Decidable (c.UpdateUncachedMeets edge key value isGetrsp isGlobalCached) :=
  inferInstanceAs (Decidable (if c.localUncachedMetadata.isKeyExist key then
      isGetrsp = false → Fits key value
    else if c.localUncachedLru.isKeyExist key then
      (isGetrsp = false → Fits key value) ∧ c.HasRoom key
    else
      Fits key value ∧ c.HasRoom key ∧ c.HasRoomInLru key ∧
        c.StaysTracked edge key value isGlobalCached))

instance (c : LocalCache) (o : LocalCacheOperation) : Decidable (c.Meets o) :=
  match o with
  | .getLocalCache _ _ _ => inferInstanceAs (Decidable (_ → _ → _))
  | .updateLocalCache _ _ _ _ _ => inferInstanceAs (Decidable (_ → (∀ _ ∈ _, _) ∧ (_ → _)))
  | .admitLocalCache _ _ _ _ => inferInstanceAs (Decidable (_ ∧ (_ → _)))
  | .getLocalCacheP2p _ _ _ => inferInstanceAs (Decidable True)
  | .evictLocalCacheWithGivenKey _ => inferInstanceAs (Decidable True)
  | .updateIsNeighborCached _ _ => inferInstanceAs (Decidable True)

/-! ## The invariant -/

/-- The sizes of the cached objects. -/
def cachedSizes (c : LocalCache) (key : Key) : Option Nat :=
  (c.coveredCache.lookup key).map (pairSize key)

/-- The containers are sound and track the sizes of the cached objects, `u` and `w`; every key is in
at most one of them. -/
structure Sizes (c : LocalCache) (u w : Key → Option Nat) : Prop where
  cached : c.localCachedMetadata.Tracks c.cachedSizes
  uncached : c.localUncachedMetadata.Tracks u
  lru : c.localUncachedLru.Tracks w
  placed : ∀ key, Placed key (c.cachedSizes key) (u key) (w key)
  valid : ∀ key value, c.coveredCache.lookup key = some value → c.isValidObjsize key value = true
  kvbytes : c.internalKvbytes = c.coveredCache.sumBy pairSize
  lt : c.internalKvbytes < uint64Limit

/-- The containers are sound. -/
def Sound (c : LocalCache) : Prop := ∃ u w, Sizes c u w

theorem sound_empty (capacityBytes maxBytesForUncachedObjects maxBytesForLocalUncachedLru : Nat) :
    Sound (empty capacityBytes maxBytesForUncachedObjects maxBytesForLocalUncachedLru) := by
  refine ⟨fun _ => none, fun _ => none, ?_⟩
  constructor
  case cached => exact CacheMetadataBase.Tracks.empty
  case uncached => exact CacheMetadataBase.Tracks.empty
  case lru => exact LocalUncachedLru.Tracks.empty
  case placed => exact fun _ => .nowhere
  case valid =>
    intro key value h
    cases h
  case kvbytes => rfl
  case lt => exact Nat.two_pow_pos 64

theorem exists_bytes {o : Option Nat} {n : Nat}
    (h : (o.any fun bytes => decide (bytes + n < uint64Limit)) = true) :
    ∃ bytes, o = some bytes ∧ bytes + n < uint64Limit := by
  obtain ⟨bytes, ho, hlt⟩ := (any_eq_true _ _).1 h
  exact ⟨bytes, ho, of_decide_eq_true hlt⟩

namespace Sizes

variable {c : LocalCache} {u w : Key → Option Nat} (edge : EdgeContext) {key : Key} {n : Nat}
  {value : Value}

theorem cachedSizes_of_lookup (hlookup : c.coveredCache.lookup key = some value) :
    c.cachedSizes key = some (pairSize key value) := by
  rw [cachedSizes, hlookup, map_some]

theorem cachedSizes_of_none (hlookup : c.coveredCache.lookup key = none) :
    c.cachedSizes key = none := by
  rw [cachedSizes, hlookup, map_none]

theorem fits_of_lookup (h : Sizes c u w) (hlookup : c.coveredCache.lookup key = some value) :
    Fits key value := by
  have hplaced := h.placed key
  rw [cachedSizes_of_lookup hlookup] at hplaced
  exact ⟨hplaced.fits_cached.ne_zero, hplaced.fits_cached.lt⟩

/-- What the invariant says about the cache. -/
theorem aligned (h : Sizes c u w) : Aligned c where
  cached_disjoint key value hlookup := by
    have hplaced := h.placed key
    rw [cachedSizes_of_lookup hlookup] at hplaced
    rw [h.uncached.isKeyExist, h.lru.isKeyExist, hplaced.of_cached.1, hplaced.of_cached.2]
    exact ⟨rfl, rfl⟩
  uncached_disjoint key hexists := by
    rw [h.uncached.isKeyExist] at hexists
    obtain ⟨n, hn⟩ := isSome_iff_exists.1 hexists
    have hplaced := h.placed key
    rw [hn] at hplaced
    rw [h.lru.isKeyExist, hplaced.of_uncached.2]
    rfl
  keys key := by
    rw [h.cached.isKeyExist, cachedSizes, isSome_map]
  sizes key value hlookup := by
    rw [h.cached.getObjectSize, cachedSizes_of_lookup hlookup, pairSize]
  kvbytes := h.kvbytes

/-! ## Changes of the containers -/

theorem withCached (h : Sizes c u w) {s : CacheMetadataBase HeteroKeyLevelMetadata}
    (hs : s.Tracks c.cachedSizes) : Sizes { c with localCachedMetadata := s } u w :=
  ⟨hs, h.uncached, h.lru, h.placed, h.valid, h.kvbytes, h.lt⟩

variable {u' w' : Key → Option Nat}

section Uncached

variable (h : Sizes c u w)
include h

/-- Other sizes of uncached keys. -/
theorem withUncachedKeys {s : CacheMetadataBase HomoKeyLevelMetadata} {l : LocalUncachedLru}
    (hs : s.Tracks u') (hl : l.Tracks w')
    (hplaced : ∀ key, Placed key (c.cachedSizes key) (u' key) (w' key)) :
    Sizes { c with localUncachedMetadata := s, localUncachedLru := l } u' w' :=
  ⟨h.cached, hs, hl, hplaced, h.valid, h.kvbytes, h.lt⟩

/-- The cached metadata has fewer key bytes than the cache has bytes. -/
theorem tableBytes_le : c.localCachedMetadata.perkeyLookupTableKeySize ≤ c.internalKvbytes := by
  obtain ⟨v, hv, hsizes⟩ := h.cached
  have hkeys : c.coveredCache.keys.Perm v.keys := by
    refine perm_keys _ v.nodup fun key => ?_
    have hnone : v.sizes key = none ↔ key ∉ v.keys := LruRecords.sizes_eq_none_iff
    have hsize : v.sizes key = c.cachedSizes key := congrFun hsizes key
    rw [hsize, cachedSizes, map_eq_none_iff] at hnone
    rw [isSome_iff_ne_none, ne_eq, hnone, not_not]
  have hle : ∀ l : List ((_ : Key) × Value),
      bytesOfKeys (l.map Sigma.fst) ≤ (l.map fun p => pairSize p.1 p.2).sum := by
    intro l
    induction l with
    | nil => exact le_rfl
    | cons p rest ih =>
      rw [List.map_cons, bytesOfKeys_cons, List.map_cons, List.sum_cons, pairSize]
      omega
  rw [hv.tableBytes, h.kvbytes, ← bytesOfKeys_perm hkeys]
  exact hle c.coveredCache.entries

/-! ## Uncached keys -/

/-- A key moves from the small LRU cache if it is there, or its reward keeps it where it is. -/
theorem exists_tryToMove (reward : Reward) (huncached : u key = none) (hroom : c.HasRoom key)
    (hcached : c.cachedSizes key = none)
    (hstays : w key = none → reward ≤ 0 ∨ c.exceedsLeastReward reward = false) :
    ∃ c', tryToMoveFromLocalUncachedLruToMetadata edge c key reward = some c' ∧ Sound c' := by
  rw [tryToMoveFromLocalUncachedLruToMetadata]
  by_cases hpos : reward ≤ 0
  · rw [if_pos hpos]
    exact ⟨c, rfl, u, w, h⟩
  rw [if_neg hpos]
  cases hexceeds : c.exceedsLeastReward reward with
  | false => exact ⟨c, rfl, u, w, h⟩
  | true =>
    cases hw : w key with
    | none =>
      rcases hstays hw with hle | hstays
      · exact absurd hle hpos
      · rw [hexceeds] at hstays
        cases hstays
    | some n =>
      have hfits : FitsSize key n := by
        have hplaced := h.placed key
        rw [hw] at hplaced
        exact hplaced.fits_lru
      obtain ⟨l, metadata, hl, hlru⟩ := h.lru.removeForExistingKey hw
      obtain ⟨bytes, hbytes, hlt⟩ := exists_bytes hroom
      -- the value is the rest of the bytes, so the size stays what it was
      have hsize := hfits.objectSize_eq
      have hne : objectSize key (valueOfObjectSize key n) ≠ 0 := by
        rw [hsize]
        exact hfits.ne_zero
      obtain ⟨s, g, hs, huncached', hpart⟩ := h.uncached.addUncached c.maxBytesForUncachedObjects
        edge metadata.isGlobalCached metadata.base.localFrequency huncached hbytes hlt hne
      refine ⟨{ c with localUncachedLru := l, localUncachedMetadata := s }, ?_, g,
        update w key none, h.withUncachedKeys huncached' hlru fun k => ?_⟩
      · rw [if_pos rfl, h.lru.getObjectSize, hw]
        simp only [hl, hs, some_bind, pure_def]
      · refine Placed.drop_uncached ?_ (hpart k)
        refine placed_of_update key h.placed ?_ (fun k hk => ?_) k
        · rw [update_self, update_self, hsize, hcached]
          exact .uncached hfits
        · rw [update_of_ne hk, update_of_ne hk]
          exact ⟨rfl, rfl, rfl⟩

theorem exists_getUncached (hcached : c.cachedSizes key = none)
    (hmeets : c.localUncachedLru.isKeyExist key = true → c.HasRoom key) :
    ∃ c', c.getUncached edge key = some c' ∧ Sound c' := by
  have hplaced := h.placed key
  rw [getUncached, h.uncached.isKeyExist, h.lru.isKeyExist]
  rw [h.lru.isKeyExist] at hmeets
  cases hu : u key with
  | some n =>
    rw [hu] at hplaced
    obtain ⟨original, horiginal⟩ := h.uncached.exists_isGlobalCached hu
    obtain ⟨s, hs, huncached⟩ := h.uncached.accessUncached edge original hu
      hplaced.fits_uncached.ne_zero
    refine ⟨{ c with localUncachedMetadata := s }, ?_, u, w,
      h.withUncachedKeys huncached h.lru h.placed⟩
    rw [isSome_some, if_pos rfl]
    simp only [horiginal, hs, some_bind, pure_def]
  | none =>
    rw [isSome_none, if_neg Bool.false_ne_true]
    cases hw : w key with
    | none => exact ⟨c, rfl, u, w, h⟩
    | some n =>
      rw [hw] at hplaced
      rw [hw, isSome_some] at hmeets
      obtain ⟨original, horiginal⟩ := h.lru.exists_isGlobalCached hw
      obtain ⟨l, reward, hl, hlru⟩ := h.lru.updateNoValueStats edge original hw
        hplaced.fits_lru.ne_zero
      have h' : Sizes { c with localUncachedLru := l } u w :=
        h.withUncachedKeys h.uncached hlru h.placed
      obtain ⟨c', hc', hsound⟩ := h'.exists_tryToMove edge reward hu
        (hmeets rfl) hcached fun hnone => absurd (hnone.symm.trans hw) (some_ne_none n).symm
      refine ⟨c', ?_, hsound⟩
      rw [isSome_some, if_pos rfl]
      simp only [horiginal, hl, some_bind]
      exact hc'

/-- A key is removed from the metadata of uncached keys. -/
theorem exists_removeFromLocalUncachedMetadata (key : Key) :
    ∃ s, c.removeFromLocalUncachedMetadata key = some s ∧
      s.Tracks (update u key none) := by
  rw [removeFromLocalUncachedMetadata, h.uncached.isKeyExist]
  cases hu : u key with
  | none =>
    rw [isSome_none, if_neg Bool.false_ne_true, ← hu, update_eq_self]
    exact ⟨_, rfl, h.uncached⟩
  | some n =>
    rw [isSome_some, if_pos rfl]
    exact h.uncached.removeForExistingKey hu

/-- A key is removed from the small LRU cache. -/
theorem exists_removeFromLocalUncachedLru (key : Key) :
    ∃ l, c.removeFromLocalUncachedLru key = some l ∧ l.Tracks (update w key none) := by
  rw [removeFromLocalUncachedLru, h.lru.isKeyExist]
  cases hw : w key with
  | none =>
    rw [isSome_none, if_neg Bool.false_ne_true, ← hw, update_eq_self]
    exact ⟨_, rfl, h.lru⟩
  | some n =>
    obtain ⟨l, metadata, hl, htracks⟩ := h.lru.removeForExistingKey hw
    rw [isSome_some, if_pos rfl, hl]
    exact ⟨l, rfl, htracks⟩

theorem placed_erase (key k : Key) :
    Placed k (c.cachedSizes k) (update u key none k) (update w key none k) :=
  ((h.placed k).drop_uncached (Part.erase u key k)).drop_lru (Part.erase w key k)

/-- A key whose object is too large now is forgotten. -/
theorem exists_detrackUncached (key : Key) : ∃ c', c.detrackUncached key = some c' ∧ Sound c' := by
  obtain ⟨s, hs, huncached⟩ := h.exists_removeFromLocalUncachedMetadata key
  obtain ⟨l, hl, hlru⟩ := h.exists_removeFromLocalUncachedLru key
  refine ⟨{ c with localUncachedMetadata := s, localUncachedLru := l }, ?_, _, _,
    h.withUncachedKeys huncached hlru (h.placed_erase key)⟩
  rw [detrackUncached, hs, hl]
  rfl

end Uncached

/-! ## Updates of uncached keys -/

variable {isGetrsp : Bool}

/-- The metadata of uncached keys after an update of a key that is there. -/
theorem exists_updateLocalUncachedMetadata (h : Sizes c u w) (hu : u key = some n)
    (isGlobalCached : Bool) (hmeets : isGetrsp = false → Fits key value) :
    ∃ s u', c.updateLocalUncachedMetadata edge key value isGetrsp isGlobalCached = some s ∧
      s.Tracks u' ∧ ∀ k, Placed k (c.cachedSizes k) (u' k) (w k) := by
  have hplaced := h.placed key
  rw [hu] at hplaced
  rw [updateLocalUncachedMetadata, h.uncached.getObjectSize, hu, some_bind]
  cases isGetrsp with
  | true =>
    obtain ⟨original, horiginal⟩ := h.uncached.exists_isGlobalCached hu
    simp only [if_true, horiginal, some_bind]
    by_cases hflag : isGlobalCached ≠ original
    · obtain ⟨s, hs, huncached⟩ := h.uncached.updateIsGlobalCached edge hu horiginal hflag
      exact ⟨s, u, (if_pos hflag).trans hs, huncached, h.placed⟩
    · exact ⟨_, u, if_neg hflag, h.uncached, h.placed⟩
  | false =>
    have hfits := hmeets rfl
    obtain ⟨s, hs, huncached⟩ := h.uncached.accessUncached edge isGlobalCached hu
      hplaced.fits_uncached.ne_zero
    have hold : u key = some (objectSize key (valueOfObjectSize key n)) := by
      rw [hplaced.fits_uncached.objectSize_eq, hu]
    obtain ⟨s', hs', huncached'⟩ := huncached.updateValueStatsForExistingKey edge hold
      hfits.objectSize_ne_zero
    refine ⟨s', _, ?_, huncached', fun k => ?_⟩
    · simp only [Bool.false_eq_true, if_false, hs, some_bind]
      exact hs'
    · refine placed_of_update key h.placed ?_ (fun k hk => ?_) k
      · rw [update_self, hplaced.of_uncached.1, hplaced.of_uncached.2, hfits.objectSize_eq]
        exact .uncached hfits.size
      · exact ⟨rfl, update_of_ne hk _ _, rfl⟩

/-- The small LRU cache after an update of a key that is there. -/
theorem exists_updateLru (h : Sizes c u w) (hw : w key = some n) (isGlobalCached : Bool)
    (hmeets : isGetrsp = false → Fits key value) :
    ∃ l reward w', c.updateLocalUncachedLru edge key value isGetrsp isGlobalCached =
        some (l, reward) ∧ l.Tracks w' ∧ w' key ≠ none ∧
      ∀ k, Placed k (c.cachedSizes k) (u k) (w' k) := by
  have hplaced := h.placed key
  rw [hw] at hplaced
  have hne : w key ≠ none := hw ▸ some_ne_none n
  rw [updateLocalUncachedLru, h.lru.isKeyExist, hw, isSome_some, if_pos rfl]
  cases isGetrsp with
  | true =>
    obtain ⟨original, horiginal⟩ := h.lru.exists_isGlobalCached hw
    simp only [if_true, horiginal, some_bind]
    by_cases hflag : isGlobalCached ≠ original
    · obtain ⟨l, reward, hl, hlru⟩ := h.lru.updateIsGlobalCached edge hw horiginal hflag
      exact ⟨l, reward, w, (if_pos hflag).trans hl, hlru, hne, h.placed⟩
    · exact ⟨_, 0, w, if_neg hflag, h.lru, hne, h.placed⟩
  | false =>
    have hfits := hmeets rfl
    obtain ⟨l, reward, hl, hlru⟩ := h.lru.updateNoValueStats edge isGlobalCached hw
      hplaced.fits_lru.ne_zero
    have hold : w key = some (objectSize key (valueOfObjectSize key n)) := by
      rw [hplaced.fits_lru.objectSize_eq, hw]
    obtain ⟨l', reward', hl', hlru'⟩ := hlru.updateValueStats edge hold hfits.objectSize_ne_zero
    refine ⟨l', reward', _, ?_, hlru', ?_, fun k => ?_⟩
    · simp only [Bool.false_eq_true, if_false, hl, hlru.getObjectSize, hw, some_bind]
      exact hl'
    · rw [update_self]
      exact some_ne_none _
    · refine placed_of_update key h.placed ?_ (fun k hk => ?_) k
      · rw [update_self, hplaced.of_lru.1, hplaced.of_lru.2, hfits.objectSize_eq]
        exact .lru hfits.size
      · exact ⟨rfl, rfl, update_of_ne hk _ _⟩

/-- The small LRU cache after an update of a new key. -/
theorem exists_addToLru (h : Sizes c u w) (hcached : c.cachedSizes key = none) (hu : u key = none)
    (hw : w key = none) (isGetrsp isGlobalCached : Bool) (hfits : Fits key value)
    (hroom : c.HasRoomInLru key) :
    ∃ l w', c.updateLocalUncachedLru edge key value isGetrsp isGlobalCached =
        some (l, LruRecords.newReward edge key value isGlobalCached) ∧ l.Tracks w' ∧
      (∀ k, Placed k (c.cachedSizes k) (u k) (w' k)) ∧
      (LruRecords.lruKeyBytes key ≤ c.maxBytesForLocalUncachedLru → w' key ≠ none) := by
  obtain ⟨bytes, hbytes, hlt⟩ := exists_bytes hroom
  obtain ⟨l, g, hl, hlru, hpart, hkept⟩ := h.lru.addForNewKey c.maxBytesForLocalUncachedLru edge
    isGlobalCached hw hbytes hlt hfits.objectSize_ne_zero
  refine ⟨l, g, ?_, hlru, fun k => ?_, fun hle => ?_⟩
  · rw [updateLocalUncachedLru, h.lru.isKeyExist, hw, isSome_none,
      if_neg Bool.false_ne_true, hl]
  · refine Placed.drop_lru ?_ (hpart k)
    refine placed_of_update key h.placed ?_ (fun k hk => ?_) k
    · rw [update_self, hcached, hu, hfits.objectSize_eq]
      exact .lru hfits.size
    · exact ⟨rfl, rfl, update_of_ne hk _ _⟩
  · rw [hkept hle]
    exact some_ne_none _

/-- An update of a key that is not cached. -/
theorem exists_updateUncached (h : Sizes c u w) (hcached : c.cachedSizes key = none)
    {isGlobalCached : Bool} (hmeets : c.UpdateUncachedMeets edge key value isGetrsp isGlobalCached)
    :
    ∃ c', c.updateUncached edge key value isGetrsp isGlobalCached = some c' ∧ Sound c' := by
  rw [UpdateUncachedMeets, h.uncached.isKeyExist, h.lru.isKeyExist] at hmeets
  rw [updateUncached, h.uncached.isKeyExist]
  cases hu : u key with
  | some n =>
    rw [hu] at hmeets
    obtain ⟨s, u', hs, huncached, hplaced⟩ := h.exists_updateLocalUncachedMetadata edge hu
      isGlobalCached hmeets
    refine ⟨{ c with localUncachedMetadata := s }, ?_, u', w,
      h.withUncachedKeys huncached h.lru hplaced⟩
    rw [isSome_some, if_pos rfl, hs]
    rfl
  | none =>
    rw [hu, isSome_none, if_neg Bool.false_ne_true] at hmeets
    rw [isSome_none, if_neg Bool.false_ne_true]
    cases hw : w key with
    | some n =>
      rw [hw, isSome_some, if_pos rfl] at hmeets
      obtain ⟨l, reward, w', hl, hlru, hthere, hplaced⟩ := h.exists_updateLru edge hw isGlobalCached
        hmeets.1
      have h' : Sizes { c with localUncachedLru := l } u w' :=
        h.withUncachedKeys h.uncached hlru hplaced
      obtain ⟨c', hc', hsound⟩ := h'.exists_tryToMove edge reward hu hmeets.2
        hcached fun hnone => absurd hnone hthere
      refine ⟨c', ?_, hsound⟩
      rw [hl]
      exact hc'
    | none =>
      rw [hw, isSome_none, if_neg Bool.false_ne_true] at hmeets
      obtain ⟨hfits, hroom, hroomLru, hstays⟩ := hmeets
      obtain ⟨l, w', hl, hlru, hplaced, hkept⟩ := h.exists_addToLru edge hcached hu hw
        isGetrsp isGlobalCached hfits hroomLru
      have h' : Sizes { c with localUncachedLru := l } u w' :=
        h.withUncachedKeys h.uncached hlru hplaced
      -- a key that the small LRU cache dropped again must not move on
      obtain ⟨c', hc', hsound⟩ := h'.exists_tryToMove edge _ hu hroom hcached
        fun hnone => hstays.resolve_left fun hle => hkept hle hnone
      refine ⟨c', ?_, hsound⟩
      rw [hl]
      exact hc'

/-! ## Cached keys -/

/-- The store with an object, the metadata with its size and the counter with the sum. -/
theorem withObject (h : Sizes c u w) {kvbytes : Nat}
    {cached : CacheMetadataBase HeteroKeyLevelMetadata}
    {uncached : CacheMetadataBase HomoKeyLevelMetadata} {lru : LocalUncachedLru}
    (hcached : cached.Tracks (update c.cachedSizes key (some (pairSize key value))))
    (huncached : uncached.Tracks u') (hlru : lru.Tracks w')
    (hplaced : ∀ k, Placed k (update c.cachedSizes key (some (pairSize key value)) k)
      (u' k) (w' k))
    (hvalid : c.isValidObjsize key value = true)
    (hsum : kvbytes = sumBy pairSize (c.coveredCache.insert key value))
    (hlt : kvbytes < uint64Limit) :
    Sound { c with
      coveredCache := c.coveredCache.insert key value
      internalKvbytes := kvbytes
      localCachedMetadata := cached
      localUncachedMetadata := uncached
      localUncachedLru := lru } := by
  have hsizes : (fun k => ((c.coveredCache.insert key value).lookup k).map (pairSize k)) =
      update c.cachedSizes key (some (pairSize key value)) := by
    funext k
    rw [lookup_insert_eq]
    by_cases hk : k = key
    · rw [if_pos hk, hk, update_self, map_some]
    · rw [if_neg hk, update_of_ne hk, cachedSizes]
  rw [← hsizes] at hcached hplaced
  refine ⟨u', w', hcached, huncached, hlru, hplaced, fun k v hlookup => ?_, hsum, hlt⟩
  rw [lookup_insert_eq] at hlookup
  by_cases hk : k = key
  · rw [if_pos hk] at hlookup
    cases hlookup
    rw [hk]
    exact hvalid
  · rw [if_neg hk] at hlookup
    exact h.valid k v hlookup

variable {originalValue : Value}

section Cached

variable (h : Sizes c u w)
include h

/-- The counter follows the store. -/
theorem exists_updatedKvbytes (hlookup : c.coveredCache.lookup key = some originalValue)
    (hroom : c.internalKvbytes + (value.valuesize - originalValue.valuesize) < uint64Limit) :
    ∃ kvbytes, c.updatedKvbytes originalValue value = some kvbytes ∧
      kvbytes = sumBy pairSize (c.coveredCache.insert key value) ∧
        kvbytes < uint64Limit := by
  have hsum := sumBy_insert pairSize c.coveredCache key value
  rw [hlookup, elim_some, ← h.kvbytes, pairSize, pairSize] at hsum
  have hlt := h.lt
  rw [updatedKvbytes]
  by_cases hless : originalValue.valuesize < value.valuesize
  · rw [if_pos hless, uint64Add_eq hroom]
    exact ⟨_, rfl, by omega, hroom⟩
  · rw [if_neg hless]
    by_cases hmore : originalValue.valuesize > value.valuesize
    · rw [if_pos hmore, uint64Minus_eq h.lt (by omega)]
      exact ⟨_, rfl, by omega, by omega⟩
    · rw [if_neg hmore]
      exact ⟨_, rfl, by omega, h.lt⟩

theorem exists_updateLocalCachedMetadata (hlookup : c.coveredCache.lookup key = some originalValue)
    (hfits : Fits key value) (isGetrsp : Bool) :
    ∃ s, c.updateLocalCachedMetadata edge key value originalValue isGetrsp = some s ∧
      s.Tracks (update c.cachedSizes key (some (pairSize key value))) := by
  have hold := h.fits_of_lookup hlookup
  have hsize := cachedSizes_of_lookup hlookup
  have hsize' : c.cachedSizes key = some (objectSize key originalValue) := by
    rw [hsize, hold.objectSize_eq]
  rw [updateLocalCachedMetadata, ← hfits.objectSize_eq]
  cases isGetrsp with
  | true => exact h.cached.updateValueStatsForExistingKey edge hsize' hfits.objectSize_ne_zero
  | false =>
    obtain ⟨s, hs, hcached⟩ := h.cached.accessCached edge false hsize hold.1
    obtain ⟨s', hs', hcached'⟩ := hcached.updateValueStatsForExistingKey edge hsize'
      hfits.objectSize_ne_zero
    refine ⟨s', ?_, hcached'⟩
    rw [if_neg Bool.false_ne_true, hs]
    exact hs'

/-- A new value of a cached object. -/
theorem exists_updateCached (hlookup : c.coveredCache.lookup key = some originalValue)
    (hfits : Fits key value) (hvalid : c.isValidObjsize key value = true)
    (hroom : c.internalKvbytes + (value.valuesize - originalValue.valuesize) < uint64Limit)
    (isGetrsp : Bool) :
    ∃ c', c.updateCached edge key value originalValue isGetrsp = some c' ∧ Sound c' := by
  obtain ⟨kvbytes, hkvbytes, hsum, hlt⟩ := h.exists_updatedKvbytes hlookup hroom
  obtain ⟨s, hs, hcached⟩ := h.exists_updateLocalCachedMetadata edge hlookup hfits isGetrsp
  have hsound := h.withObject hcached h.uncached h.lru (fun k => ?_) hvalid hsum hlt
  · refine ⟨_, ?_, hsound⟩
    rw [updateCached, hkvbytes, hs]
    rfl
  · refine placed_of_update key h.placed ?_ (fun k hk => ?_) k
    · have hplaced := h.placed key
      rw [cachedSizes_of_lookup hlookup] at hplaced
      rw [update_self, hplaced.of_cached.1, hplaced.of_cached.2]
      exact .cached hfits.size
    · exact ⟨update_of_ne hk _ _, rfl, rfl⟩

/-- An admission takes the key out of the containers of uncached keys. -/
theorem exists_admit (hlookup : c.coveredCache.lookup key = none) (hfits : Fits key value)
    (hvalid : c.isValidObjsize key value = true)
    (hroom : c.internalKvbytes + pairSize key value < uint64Limit) (isNeighborCached : Bool) :
    ∃ c', c.admitLocalCache edge key value isNeighborCached = some (c', true) ∧ Sound c' := by
  have hbytes : c.localCachedMetadata.perkeyLookupTableKeySize + key.getKeyLength <
      uint64Limit := by
    have hle := h.tableBytes_le
    rw [pairSize] at hroom
    omega
  have hsum := sumBy_insert pairSize c.coveredCache key value
  rw [hlookup, elim_none, ← h.kvbytes, Nat.add_zero] at hsum
  have hcounter : uint64Add c.internalKvbytes (objectSize key value) =
      some (sumBy pairSize (c.coveredCache.insert key value)) := by
    rw [hfits.objectSize_eq, uint64Add_eq hroom, hsum]
  obtain ⟨cached, hadd, hcached⟩ := h.cached.addCached edge isNeighborCached
    (cachedSizes_of_none hlookup) hbytes hfits.objectSize_ne_zero
  rw [hfits.objectSize_eq] at hcached
  obtain ⟨uncached, hremove, huncached⟩ := h.exists_removeFromLocalUncachedMetadata key
  obtain ⟨lru, hremove', hlru⟩ := h.exists_removeFromLocalUncachedLru key
  have hsound := h.withObject hcached huncached hlru (fun k => ?_) hvalid rfl (hsum ▸ hroom)
  · refine ⟨_, ?_, hsound⟩
    rw [admitLocalCache, require_of hvalid, hlookup]
    simp only [hcounter, hadd, hremove, hremove', some_bind, pure_def]
  · refine placed_of_update key h.placed ?_ (fun k hk => ?_) k
    · rw [update_self, update_self, update_self]
      exact .cached hfits.size
    · exact ⟨update_of_ne hk _ _, update_of_ne hk _ _,
        update_of_ne hk _ _⟩

/-- An eviction takes the object out of the store and out of the metadata. -/
theorem exists_evict (hlookup : c.coveredCache.lookup key = some value) :
    ∃ c', c.evictLocalCacheWithGivenKey key = some (c', some value) ∧ Sound c' := by
  have hfits := h.fits_of_lookup hlookup
  obtain ⟨s, hs, hcached⟩ := h.cached.removeForExistingKey (cachedSizes_of_lookup hlookup)
  have hsizes : (fun k => ((c.coveredCache.erase key).lookup k).map (pairSize k)) =
      update c.cachedSizes key none := by
    funext k
    rw [lookup_erase_eq]
    by_cases hk : k = key
    · rw [if_pos hk, hk, update_self, map_none]
    · rw [if_neg hk, update_of_ne hk, cachedSizes]
  rw [← hsizes] at hcached
  have hsum := sumBy_erase pairSize c.coveredCache key
  rw [hlookup, elim_some, ← h.kvbytes] at hsum
  have hlt := h.lt
  have hltErase : sumBy pairSize (c.coveredCache.erase key) < uint64Limit := by omega
  have hcounter : uint64Minus c.internalKvbytes (objectSize key value) =
      sumBy pairSize (c.coveredCache.erase key) := by
    rw [hfits.objectSize_eq, uint64Minus_eq h.lt (by omega)]
    omega
  refine ⟨{ c with
    coveredCache := c.coveredCache.erase key
    internalKvbytes := sumBy pairSize (c.coveredCache.erase key)
    localCachedMetadata := s }, ?_, u, w, hcached, h.uncached, h.lru, fun k => ?_,
    fun k v hk => ?_, rfl, hltErase⟩
  · rw [evictLocalCacheWithGivenKey, hlookup]
    simp only [hs, require_of (h.valid key value hlookup), hcounter, some_bind, pure_def]
  · refine placed_of_update key h.placed ?_ (fun k hk => ?_) k
    · have hplaced := h.placed key
      rw [cachedSizes_of_lookup hlookup] at hplaced
      have hnone : ((c.coveredCache.erase key).lookup key).map (pairSize key) = none :=
        (congrFun hsizes key).trans (update_self _ _ _)
      show Placed key (((c.coveredCache.erase key).lookup key).map (pairSize key)) _ _
      rw [hnone, hplaced.of_cached.1, hplaced.of_cached.2]
      exact .nowhere
    · exact ⟨(congrFun hsizes k).trans (update_of_ne hk _ _), rfl, rfl⟩
  · rw [lookup_erase_eq] at hk
    split at hk
    · cases hk
    · exact h.valid k v hk

theorem exists_getLocalCache {isRedirected : Bool}
    (hmeets : isRedirected = false → c.localUncachedLru.isKeyExist key = true → c.HasRoom key) :
    ∃ c' r, c.getLocalCache edge key isRedirected = some (c', r) ∧ Sound c' := by
  rw [getLocalCache]
  cases hlookup : c.coveredCache.lookup key with
  | some value =>
    obtain ⟨s, hs, hcached⟩ := h.cached.accessCached edge isRedirected
      (cachedSizes_of_lookup hlookup) (h.fits_of_lookup hlookup).1
    refine ⟨{ c with localCachedMetadata := s }, some value, ?_, u, w, h.withCached hcached⟩
    simp only [hs, require_of (h.valid key value hlookup), some_bind, pure_def]
  | none =>
    cases isRedirected with
    | true => exact ⟨c, none, rfl, u, w, h⟩
    | false =>
      obtain ⟨c', hc', hsound⟩ := h.exists_getUncached edge (cachedSizes_of_none hlookup)
        (hmeets rfl)
      refine ⟨c', none, ?_, hsound⟩
      simp only [Bool.false_eq_true, if_false, hc', map_some]

theorem exists_getLocalCacheP2p (key : Key) (redirectedReward : Nat) :
    ∃ c' r, c.getLocalCacheP2p edge key redirectedReward = some (c', r) ∧ Sound c' := by
  rw [getLocalCacheP2p]
  cases hlookup : c.coveredCache.lookup key with
  | some value =>
    obtain ⟨s, hs, hcached⟩ := h.cached.accessCachedP2p edge redirectedReward
      (cachedSizes_of_lookup hlookup) (h.fits_of_lookup hlookup).1
    refine ⟨{ c with localCachedMetadata := s }, some value, ?_, u, w, h.withCached hcached⟩
    simp only [hs, require_of (h.valid key value hlookup), some_bind, pure_def]
  | none => exact ⟨c, none, rfl, u, w, h⟩

theorem exists_updateLocalCache {isGlobalCached : Bool}
    (hmeets : c.Meets (.updateLocalCache edge key value isGetrsp isGlobalCached)) :
    ∃ c' r, c.updateLocalCache edge key value isGetrsp isGlobalCached = some (c', r) ∧
      Sound c' := by
  rw [updateLocalCache]
  cases hlookup : c.coveredCache.lookup key with
  | some originalValue =>
    by_cases hvalid : c.isValidObjsize key value = true
    · obtain ⟨hfits, hroom⟩ := (hmeets hvalid).1 originalValue hlookup
      obtain ⟨c', hc', hsound⟩ := h.exists_updateCached edge hlookup hfits hvalid hroom
        isGetrsp
      refine ⟨c', (true, true), ?_, hsound⟩
      simp only [if_pos hvalid, hc', some_bind, pure_def]
    · exact ⟨c, (true, false), if_neg hvalid, u, w, h⟩
  | none =>
    by_cases hvalid : c.isValidObjsize key value = true
    · obtain ⟨c', hc', hsound⟩ := h.exists_updateUncached edge
        (cachedSizes_of_none hlookup) ((hmeets hvalid).2 hlookup)
      refine ⟨c', (false, false), ?_, hsound⟩
      simp only [if_pos hvalid, hc', map_some]
    · obtain ⟨c', hc', hsound⟩ := h.exists_detrackUncached key
      refine ⟨c', (false, false), ?_, hsound⟩
      simp only [if_neg hvalid, hc', map_some]

theorem exists_updateIsNeighborCached (key : Key) (isNeighborCached : Bool) :
    ∃ c', c.updateIsNeighborCached key isNeighborCached = some c' ∧ Sound c' := by
  rw [updateIsNeighborCached, h.cached.isKeyExist]
  cases hsize : c.cachedSizes key with
  | none => exact ⟨c, rfl, u, w, h⟩
  | some n =>
    obtain ⟨s, hs, hcached⟩ := h.cached.updateIsNeighborCached isNeighborCached hsize
    refine ⟨{ c with localCachedMetadata := s }, ?_, u, w, h.withCached hcached⟩
    rw [isSome_some, if_pos rfl, hs]
    rfl

end Cached

end Sizes

/-! ## Every operation -/

/-- An operation that meets the condition does not abort, and the containers stay sound. -/
theorem exists_step {c : LocalCache} {o : LocalCacheOperation} (h : Sound c) (hmeets : c.Meets o) :
    ∃ c' r, c.step o = some (c', r) ∧ Sound c' := by
  obtain ⟨u, w, h⟩ := h
  cases o with
  | getLocalCache edge key isRedirected =>
    obtain ⟨c', r, hc', hsound⟩ := h.exists_getLocalCache edge hmeets
    exact ⟨c', _, by rw [step, hc', map_some], hsound⟩
  | getLocalCacheP2p edge key redirectedReward =>
    obtain ⟨c', r, hc', hsound⟩ := h.exists_getLocalCacheP2p edge key redirectedReward
    exact ⟨c', _, by rw [step, hc', map_some], hsound⟩
  | updateLocalCache edge key value isGetrsp isGlobalCached =>
    obtain ⟨c', r, hc', hsound⟩ := h.exists_updateLocalCache edge hmeets
    exact ⟨c', _, by rw [step, hc', map_some], hsound⟩
  | admitLocalCache edge key value isNeighborCached =>
    obtain ⟨hvalid, hmeets⟩ := hmeets
    cases hlookup : c.coveredCache.lookup key with
    | some original =>
      refine ⟨c, .admitted true, ?_, u, w, h⟩
      rw [step, admitLocalCache, require_of hvalid, hlookup]
      rfl
    | none =>
      obtain ⟨hfits, hroom⟩ := hmeets hlookup
      obtain ⟨c', hc', hsound⟩ := h.exists_admit edge hlookup hfits hvalid hroom
        isNeighborCached
      exact ⟨c', _, by rw [step, hc', map_some], hsound⟩
  | evictLocalCacheWithGivenKey key =>
    cases hlookup : c.coveredCache.lookup key with
    | some value =>
      obtain ⟨c', hc', hsound⟩ := h.exists_evict hlookup
      exact ⟨c', _, by rw [step, hc', map_some], hsound⟩
    | none =>
      refine ⟨c, .value none, ?_, u, w, h⟩
      rw [step, evictLocalCacheWithGivenKey, hlookup]
      rfl
  | updateIsNeighborCached key isNeighborCached =>
    obtain ⟨c', hc', hsound⟩ := h.exists_updateIsNeighborCached key isNeighborCached
    exact ⟨c', _, by rw [step, hc', map_some], hsound⟩

theorem sound_of_runs {capacityBytes maxBytesForUncachedObjects maxBytesForLocalUncachedLru : Nat}
    {tr : List (LocalCacheOperation × LocalCacheResult)} {c : LocalCache}
    (h : Runs step Meets
      (empty capacityBytes maxBytesForUncachedObjects maxBytesForLocalUncachedLru) tr c) :
    Sound c := by
  refine h.invariant (sound_empty _ _ _) fun hs hmeets hstep => ?_
  obtain ⟨c', r, hc', hsound⟩ := exists_step hs hmeets
  rw [hc'] at hstep
  cases hstep
  exact hsound

/-- In a run whose operations meet the condition, every state is aligned, and the next operation
that meets the condition does not abort. -/
theorem aligned_of_runs {capacityBytes maxBytesForUncachedObjects maxBytesForLocalUncachedLru : Nat}
    {tr : List (LocalCacheOperation × LocalCacheResult)} {c : LocalCache}
    (h : Runs step Meets
      (empty capacityBytes maxBytesForUncachedObjects maxBytesForLocalUncachedLru) tr c) :
    Aligned c ∧ ∀ o, c.Meets o → (c.step o).isSome = true := by
  have hsound := sound_of_runs h
  refine ⟨?_, fun o hmeets => ?_⟩
  · obtain ⟨u, w, hsizes⟩ := hsound
    exact hsizes.aligned
  · obtain ⟨c', r, hc', -⟩ := exists_step hsound hmeets
    rw [hc']
    rfl

/-! ## Runs -/

/-- An edge at which a local hit is worth twice a cooperative one. -/
def halfEdge : EdgeContext := { weights := ⟨1, 1 / 2⟩ }

/-- A key with one byte. -/
def byteKey (byte : UInt8) : Key := ⟨[byte]⟩

/-- Two new uncached keys, of which the second stays in the small LRU cache; the first one is read,
admitted, written and evicted, and then comes back. -/
theorem aligned_of_runs_seven :
    ∃ tr c, Runs step Meets (empty 1000 200 100) tr c ∧ tr.length = 7 ∧ Aligned c ∧
      c.localUncachedLru.isKeyExist (byteKey 2) = true := by
  let operations : List LocalCacheOperation := [
    .updateLocalCache halfEdge (byteKey 1) (.ofSize 9) true false,
    .updateLocalCache halfEdge (byteKey 2) (.ofSize 99) true false,
    .getLocalCache halfEdge (byteKey 1) false,
    .admitLocalCache halfEdge (byteKey 1) (.ofSize 9) false,
    .updateLocalCache halfEdge (byteKey 1) (.ofSize 19) false false,
    .evictLocalCacheWithGivenKey (byteKey 1),
    .updateLocalCache halfEdge (byteKey 1) (.ofSize 19) false false]
  have hexec : (exec step Meets (empty 1000 200 100) operations).any
      (fun c => c.localUncachedLru.isKeyExist (byteKey 2)) = true := by decide +kernel
  obtain ⟨tr, c, hrun, htr, hlru⟩ := exists_runs_of_any hexec
  have hlength : tr.length = 7 := by
    have hmap := congrArg List.length htr
    rwa [List.length_map] at hmap
  exact ⟨tr, c, hrun, hlength, (aligned_of_runs hrun).1, hlru⟩

/-- A budget of the small LRU cache below the metadata of one key: the first object that the cache
sees aborts the process. -/
theorem update_aborts : (empty 1000 200 30).isValidObjsize (byteKey 1) (.ofSize 9) = true ∧
      (empty 1000 200 30).step
        (.updateLocalCache halfEdge (byteKey 1) (.ofSize 9) true false) = none := by
  decide +kernel

end LocalCache

end Covered.Cache
