import Mathlib.Data.Fintype.Option
import Covered.Cache.LocalCacheAlignment
import Covered.Cache.LocalCacheBehavior
import Covered.Edge.DirectoryCacher

/-!
# Cached directories beside the threads of a cache server

The workers and the placement processor of an edge look up, admit and evict keys of other beacons.
Each call of the local cache and of the directory cacher is atomic, and what a thread does is a
sequence of such calls: a worker that has a valid directory first asks whether the popularity of the
key is tracked, which it is of uncached keys only, and then puts the directory in; an admission
first stores the object and then removes the directory; an eviction first takes the victims out of
the cache and then sends a request for each.

`directories_guarded_of_runs`: only an uncached key has a directory, and the check in the eviction
request holds, in each run in which no directory is put in for a key that has been admitted
meanwhile or whose eviction request is still to be sent, no victim has a directory that its
admission is still to remove, and no request is repeated after the directory was looked up anew.
-/

set_option autoImplicit false

namespace Covered.Edge

open Cache Common Cooperation Lib Lib.Checked Lib.Execution Popularity UnorderedMap Function
open LocalCache

namespace CachedDirectories

/-! ## Threads -/

/-- One of the workers, or the placement processor. -/
abbrev Thread (workercnt : Nat) := Option (Fin workercnt)

/-- The placement processor. -/
abbrev placementProcessor {workercnt : Nat} : Thread workercnt := none

/-- What a thread does. -/
inductive Activity where
  | idle
  /-- `needLookupBeaconDirectory_` with the popularity of the key -/
  | checking (key : Key) (collectedPopularity : CollectedPopularity)
  /-- a lookup response is awaited -/
  | lookingUp (key : Key)
  /-- `processRspToLookupBeaconDirectory_` with a valid directory and the popularity of the key -/
  | updating (key : Key) (directoryInfo : DirectoryInfo) (collectedPopularity : CollectedPopularity)
  /-- the response of the target edge is awaited -/
  | redirecting (key : Key)
  /-- `admitLocalEdgeCache_` after the object was stored -/
  | admitting (key : Key)
  /-- the loop of `evictForCapacity_` -/
  | evicting (totalVictims : List Key)
  /-- `parallelEvictDirectory_`: victims without a request, and those that await a response -/
  | evictingDirectories (unsent waiting : List Key)
deriving DecidableEq

namespace Activity

/-- The keys that a thread is at. -/
def keys : Activity → List Key
  | idle => []
  | checking key _ | lookingUp key | updating key _ _ | redirecting key | admitting key => [key]
  | evicting totalVictims => totalVictims
  | evictingDirectories unsent waiting => unsent ++ waiting

/-- The victims whose eviction request is still to be sent. -/
def unsentVictims : Activity → List Key
  | evicting totalVictims => totalVictims
  | evictingDirectories unsent _ => unsent
  | _ => []

/-- The victims whose response is awaited. -/
def waitingVictims : Activity → List Key
  | evictingDirectories _ waiting => waiting
  | _ => []

/-- The key whose directory is put in next. -/
def keptKey : Activity → Option Key
  | updating key _ collectedPopularity =>
      if collectedPopularity.isTracked = true then some key else none
  | _ => none

end Activity

/-- The local cache, the cached directories, and the threads. -/
structure State (workercnt : Nat) where
  cache : LocalCache
  cacher : DirectoryCacher
  rwlockForEviction : Option (Thread workercnt) := none
  activity : Thread workercnt → Activity := fun _ => .idle

/-- One atomic call of a thread, with what it reads from its edge or from a message. -/
inductive Action (workercnt : Nat) where
  | accessCache (operation : LocalCacheOperation)
  | needLookup (worker : Fin workercnt) (key : Key)
  | accessCacher (worker : Fin workercnt)
  | lookupResponse (worker : Fin workercnt) (validDirectory : Option DirectoryInfo)
  | updateCacher (worker : Fin workercnt)
  | redirectedResponse (worker : Fin workercnt) (isValid : Bool)
  | writelockRequest (worker : Fin workercnt) (key : Key)
  | admitObject (edge : EdgeContext) (key : Key) (value : Value) (isNeighborCached : Bool)
  | removeAdmitted
  | startEvict (thread : Thread workercnt)
  | evictVictim (thread : Thread workercnt) (key : Key)
  | finishEvict (thread : Thread workercnt)
  | evictRequest (thread : Thread workercnt) (key : Key)
  | evictResponse (thread : Thread workercnt) (key : Key)
  | timeout (thread : Thread workercnt)
  | finishDirectories (thread : Thread workercnt)

/-- The operations that neither admit nor evict. -/
def IsAccess : LocalCacheOperation → Prop
  | .admitLocalCache .. => False
  | .evictLocalCacheWithGivenKey _ => False
  | _ => True

instance : DecidablePred IsAccess := fun operation =>
  match operation with
  | .getLocalCache .. => inferInstanceAs (Decidable True)
  | .getLocalCacheP2p .. => inferInstanceAs (Decidable True)
  | .updateLocalCache .. => inferInstanceAs (Decidable True)
  | .updateIsNeighborCached .. => inferInstanceAs (Decidable True)
  | .admitLocalCache .. => inferInstanceAs (Decidable False)
  | .evictLocalCacheWithGivenKey _ => inferInstanceAs (Decidable False)

variable {workercnt : Nat}

namespace State

def goTo (s : State workercnt) (thread : Thread workercnt) (activity : Activity) :
    State workercnt :=
  { s with activity := Function.update s.activity thread activity }

def removeCachedDirectory (s : State workercnt) (key : Key) : State workercnt :=
  { s with cacher := s.cacher.removeCachedDirectoryIfAny key }

/-- A directory is used unless the popularity of its key changed much; else it is looked up. -/
def needLookupBeaconDirectory (s : State workercnt) (worker : Fin workercnt) (key : Key)
    (collectedPopularity : CollectedPopularity) : State workercnt × Option DirectoryInfo :=
  if collectedPopularity.isTracked = true then
    match s.cacher.checkPopularityChange key collectedPopularity.localUncachedPopularity with
    | some (cachedDirectory, false) =>
        (s.goTo (some worker) (.redirecting key), some cachedDirectory.dirinfo)
    | _ => (s.goTo (some worker) (.lookingUp key), none)
  else ((s.removeCachedDirectory key).goTo (some worker) (.lookingUp key), none)

/-- The directory of a tracked key is put in, the directory of another key is removed. -/
def updateDirectoryCacher (s : State workercnt) (key : Key) (directoryInfo : DirectoryInfo)
    (collectedPopularity : CollectedPopularity) : Option (State workercnt) :=
  if collectedPopularity.isTracked = true then do
    let cacher ← s.cacher.updateForNewCachedDirectory key
      ⟨directoryInfo, collectedPopularity.localUncachedPopularity⟩
    return { s with cacher }
  else some (s.removeCachedDirectory key)

end State

/-- One step; the output is the directory that a worker goes on with, if it has one. A victim gets
its request in any order, and is sent again after a timeout. -/
def step (s : State workercnt) :
    Action workercnt → Option (State workercnt × Option DirectoryInfo)
  | .accessCache operation => do
      require (IsAccess operation)
      let (cache, _) ← s.cache.step operation
      return ({ s with cache }, none)
  | .needLookup worker key => do
      require (s.activity (some worker) = .idle)
      let collectedPopularity ← s.cache.getCollectedPopularity key
      return (s.goTo (some worker) (.checking key collectedPopularity), none)
  | .accessCacher worker =>
      match s.activity (some worker) with
      | .checking key collectedPopularity =>
          some (s.needLookupBeaconDirectory worker key collectedPopularity)
      | _ => none
  | .lookupResponse worker validDirectory =>
      match s.activity (some worker), validDirectory with
      | .lookingUp key, some directoryInfo => do
          let collectedPopularity ← s.cache.getCollectedPopularity key
          return (s.goTo (some worker) (.updating key directoryInfo collectedPopularity), none)
      | .lookingUp key, none => some ((s.removeCachedDirectory key).goTo (some worker) .idle, none)
      | _, _ => none
  | .updateCacher worker =>
      match s.activity (some worker) with
      | .updating key directoryInfo collectedPopularity => do
          let s ← s.updateDirectoryCacher key directoryInfo collectedPopularity
          return (s.goTo (some worker) (.redirecting key), some directoryInfo)
      | _ => none
  | .redirectedResponse worker isValid =>
      match s.activity (some worker) with
      | .redirecting key =>
          some ((if isValid then s else s.removeCachedDirectory key).goTo (some worker) .idle, none)
      | _ => none
  | .writelockRequest worker key => do
      require (s.activity (some worker) = .idle)
      return (s.removeCachedDirectory key, none)
  | .admitObject edge key value isNeighborCached => do
      require (s.activity placementProcessor = .idle)
      let (cache, _) ← s.cache.admitLocalCache edge key value isNeighborCached
      return (({ s with cache } : State workercnt).goTo placementProcessor (.admitting key), none)
  | .removeAdmitted =>
      match s.activity placementProcessor with
      | .admitting key => some ((s.removeCachedDirectory key).goTo placementProcessor .idle, none)
      | _ => none
  | .startEvict thread => do
      require (s.activity thread = .idle ∧ s.rwlockForEviction = none)
      return (({ s with rwlockForEviction := some thread } : State workercnt).goTo thread
        (.evicting []), none)
  | .evictVictim thread key =>
      match s.activity thread with
      | .evicting totalVictims => do
          let (cache, victim) ← s.cache.evictLocalCacheWithGivenKey key
          require (victim.isSome = true)
          return (({ s with cache } : State workercnt).goTo thread
            (.evicting (totalVictims.insert key)), none)
      | _ => none
  | .finishEvict thread =>
      match s.activity thread with
      | .evicting totalVictims =>
          some (({ s with rwlockForEviction := none } : State workercnt).goTo thread
            (.evictingDirectories totalVictims []), none)
      | _ => none
  | .evictRequest thread key =>
      match s.activity thread with
      | .evictingDirectories unsent waiting => do
          require (key ∈ unsent)
          -- an evicted key was cached, so it must not have a directory
          require (s.cacher.getCachedDirectory key = none)
          return (s.goTo thread (.evictingDirectories (unsent.erase key) (key :: waiting)), none)
      | _ => none
  | .evictResponse thread key =>
      match s.activity thread with
      | .evictingDirectories unsent waiting => do
          require (key ∈ waiting)
          return (s.goTo thread (.evictingDirectories unsent (waiting.erase key)), none)
      | _ => none
  | .timeout thread =>
      match s.activity thread with
      | .evictingDirectories unsent waiting =>
          some (s.goTo thread (.evictingDirectories (unsent ++ waiting) []), none)
      | _ => none
  | .finishDirectories thread => do
      require (s.activity thread = .evictingDirectories [] [])
      return (s.goTo thread .idle, none)

/-- When no step goes wrong: a directory is put in for a key only if it is not cached, or its
admission is still to remove the directory, and if no eviction request for it is still to be sent;
a victim has no directory; and none has one when its request is repeated. -/
def Meets (s : State workercnt) : Action workercnt → Prop
  | .updateCacher worker => ∀ key ∈ (s.activity (some worker)).keptKey,
      (s.cache.isLocalCached key = true → s.activity placementProcessor = .admitting key) ∧
        ∀ thread, key ∉ (s.activity thread).unsentVictims
  | .evictVictim _ key => s.cacher.getCachedDirectory key = none
  | .timeout thread =>
      ∀ key ∈ (s.activity thread).waitingVictims, s.cacher.getCachedDirectory key = none
  | _ => True

instance (s : State workercnt) : DecidablePred (Meets s) := fun action =>
  match action with
  | .updateCacher worker => inferInstanceAs (Decidable (∀ key ∈ (s.activity (some worker)).keptKey,
      (s.cache.isLocalCached key = true → s.activity placementProcessor = .admitting key) ∧
        ∀ thread, key ∉ (s.activity thread).unsentVictims))
  | .evictVictim _ key => inferInstanceAs (Decidable (s.cacher.getCachedDirectory key = none))
  | .timeout thread => inferInstanceAs (Decidable
      (∀ key ∈ (s.activity thread).waitingVictims, s.cacher.getCachedDirectory key = none))
  | .accessCache _ => inferInstanceAs (Decidable True)
  | .needLookup .. => inferInstanceAs (Decidable True)
  | .accessCacher _ => inferInstanceAs (Decidable True)
  | .lookupResponse .. => inferInstanceAs (Decidable True)
  | .redirectedResponse .. => inferInstanceAs (Decidable True)
  | .writelockRequest .. => inferInstanceAs (Decidable True)
  | .admitObject .. => inferInstanceAs (Decidable True)
  | .removeAdmitted => inferInstanceAs (Decidable True)
  | .startEvict _ => inferInstanceAs (Decidable True)
  | .finishEvict _ => inferInstanceAs (Decidable True)
  | .evictRequest .. => inferInstanceAs (Decidable True)
  | .evictResponse .. => inferInstanceAs (Decidable True)
  | .finishDirectories _ => inferInstanceAs (Decidable True)

/-! ## Which keys are cached -/

section Cached

variable {c c' : LocalCache} {key : Key}

/-- What a cache holds, up to which size. -/
def held (c : LocalCache) : Nat × UnorderedMap Key Value := (c.capacityBytes, c.coveredCache)

/-! Requests for keys that are not cached leave the cached objects alone. -/

variable {edge : EdgeContext}

theorem held_tryToMove {reward : Reward}
    (h : tryToMoveFromLocalUncachedLruToMetadata edge c key reward = some c') :
    held c' = held c := by
  unfold tryToMoveFromLocalUncachedLruToMetadata at h
  split at h
  · cases h
    rfl
  · split at h
    · simp only [bind_eq_some_iff, pure_eq_some_iff] at h
      obtain ⟨-, -, ⟨lru, metadata⟩, -, uncached, -, rfl⟩ := h
      rfl
    · cases h
      rfl

theorem held_getUncached (h : c.getUncached edge key = some c') :
    held c' = held c := by
  unfold getUncached at h
  split at h
  · simp only [bind_eq_some_iff, pure_eq_some_iff] at h
    obtain ⟨-, -, uncached, -, rfl⟩ := h
    rfl
  · split at h
    · simp only [bind_eq_some_iff] at h
      obtain ⟨-, -, ⟨lru, reward⟩, -, hmove⟩ := h
      have hmoved := held_tryToMove hmove
      exact hmoved
    · cases h
      rfl

variable {value : Value}

variable {isNeighborCached isGetrsp isGlobalCached : Bool} {result : LocalCacheResult}
    {operation : LocalCacheOperation}

theorem held_updateUncached
    (h : c.updateUncached edge key value isGetrsp isGlobalCached = some c') :
    held c' = held c := by
  unfold updateUncached at h
  split at h
  · simp only [bind_eq_some_iff, pure_eq_some_iff] at h
    obtain ⟨uncached, -, rfl⟩ := h
    rfl
  · simp only [bind_eq_some_iff] at h
    obtain ⟨⟨lru, reward⟩, -, hmove⟩ := h
    have hmoved := held_tryToMove hmove
    exact hmoved

theorem held_detrackUncached (h : c.detrackUncached key = some c') :
    held c' = held c := by
  simp only [detrackUncached, bind_eq_some_iff, pure_eq_some_iff] at h
  obtain ⟨uncached, -, lru, -, rfl⟩ := h
  rfl

theorem held_getLocalCache {isRedirected : Bool} {result : Option Value}
    (h : c.getLocalCache edge key isRedirected = some (c', result)) : held c' = held c := by
  unfold getLocalCache at h
  split at h
  · simp only [bind_eq_some_iff, pure_eq_some_iff, Prod.mk.injEq] at h
    obtain ⟨cached, -, -, -, rfl, -⟩ := h
    rfl
  · obtain ⟨c₁, hget, heq⟩ := Option.map_eq_some_iff.1 h
    cases heq
    split at hget
    · cases hget
      rfl
    · exact held_getUncached hget

theorem held_getLocalCacheP2p {redirectedReward : Nat} {result : Option Value}
    (h : c.getLocalCacheP2p edge key redirectedReward = some (c', result)) : held c' = held c := by
  unfold getLocalCacheP2p at h
  split at h
  · simp only [bind_eq_some_iff, pure_eq_some_iff, Prod.mk.injEq] at h
    obtain ⟨cached, -, -, -, rfl, -⟩ := h
    rfl
  · cases h
    rfl

theorem held_updateIsNeighborCached
    (h : c.updateIsNeighborCached key isNeighborCached = some c') : held c' = held c := by
  unfold updateIsNeighborCached at h
  split at h
  · obtain ⟨cached, -, heq⟩ := bind_eq_some_iff.1 h
    cases heq
    rfl
  · cases h
    rfl

theorem held_updateLocalCache {result : Bool × Bool}
    (h : c.updateLocalCache edge key value isGetrsp isGlobalCached = some (c', result)) :
    held c' = held c ∨ c.isValidObjsize key value = true ∧ c.isLocalCached key = true ∧
      held c' = (c.capacityBytes, c.coveredCache.insert key value) := by
  unfold updateLocalCache at h
  cases hlookup : c.coveredCache.lookup key with
  | some originalValue =>
    simp only [hlookup] at h
    split at h
    · next hvalid =>
      simp only [updateCached, bind_eq_some_iff, pure_eq_some_iff] at h
      obtain ⟨c₁, ⟨kvbytes, -, cached, -, rfl⟩, heq⟩ := h
      cases heq
      exact .inr ⟨hvalid, Option.isSome_of_eq_some hlookup, rfl⟩
    · cases h
      exact .inl rfl
  | none =>
    simp only [hlookup] at h
    obtain ⟨c₁, hupdate, heq⟩ := Option.map_eq_some_iff.1 h
    cases heq
    split at hupdate
    · exact .inl (held_updateUncached hupdate)
    · exact .inl (held_detrackUncached hupdate)

theorem held_admission {result : Bool}
    (h : c.admitLocalCache edge key value isNeighborCached = some (c', result)) :
    held c' = held c ∨ c.isValidObjsize key value = true ∧
      held c' = (c.capacityBytes, c.coveredCache.insert key value) := by
  obtain ⟨hvalid, h⟩ := require_bind_iff.1 h
  cases hlookup : c.coveredCache.lookup key with
  | some originalValue =>
    simp only [hlookup] at h
    cases h
    exact .inl rfl
  | none =>
    simp only [hlookup, bind_eq_some_iff, pure_eq_some_iff, Prod.mk.injEq] at h
    obtain ⟨kvbytes, -, cached, -, uncached, -, lru, -, rfl, -⟩ := h
    exact .inr ⟨hvalid, rfl⟩

theorem held_evict {victim : Option Value}
    (h : c.evictLocalCacheWithGivenKey key = some (c', victim)) :
    held c' = held c ∨ held c' = (c.capacityBytes, c.coveredCache.erase key) := by
  unfold evictLocalCacheWithGivenKey at h
  cases hlookup : c.coveredCache.lookup key with
  | some value =>
    simp only [hlookup, bind_eq_some_iff, pure_eq_some_iff, Prod.mk.injEq] at h
    obtain ⟨cached, -, -, -, rfl, -⟩ := h
    exact .inr rfl
  | none =>
    simp only [hlookup] at h
    cases h
    exact .inl rfl

/-- What a cache holds after a request: the same, or also an object that was found valid, or not the
object of one key. An access does not change which keys are cached. -/
theorem held_step (h : c.step operation = some (c', result)) :
    held c' = held c ∨
    (∃ key value, c.isValidObjsize key value = true ∧
      (IsAccess operation → c.isLocalCached key = true) ∧
      held c' = (c.capacityBytes, c.coveredCache.insert key value)) ∨
    ∃ key, ¬ IsAccess operation ∧ held c' = (c.capacityBytes, c.coveredCache.erase key) := by
  cases operation with
  | getLocalCache edge key isRedirected =>
    obtain ⟨⟨c₁, value⟩, hget, heq⟩ := Option.map_eq_some_iff.1 h
    cases heq
    exact .inl (held_getLocalCache hget)
  | getLocalCacheP2p edge key redirectedReward =>
    obtain ⟨⟨c₁, value⟩, hget, heq⟩ := Option.map_eq_some_iff.1 h
    cases heq
    exact .inl (held_getLocalCacheP2p hget)
  | updateLocalCache edge key value isGetrsp isGlobalCached =>
    obtain ⟨⟨c₁, updated⟩, hupdate, heq⟩ := Option.map_eq_some_iff.1 h
    cases heq
    refine (held_updateLocalCache hupdate).imp_right fun ⟨hvalid, hcached, hheld⟩ => ?_
    exact .inl ⟨key, value, hvalid, fun _ => hcached, hheld⟩
  | updateIsNeighborCached key isNeighborCached =>
    obtain ⟨c₁, hupdate, heq⟩ := Option.map_eq_some_iff.1 h
    cases heq
    exact .inl (held_updateIsNeighborCached hupdate)
  | admitLocalCache edge key value isNeighborCached =>
    obtain ⟨⟨c₁, admitted⟩, hadmit, heq⟩ := Option.map_eq_some_iff.1 h
    cases heq
    refine (held_admission hadmit).imp_right fun ⟨hvalid, hheld⟩ => ?_
    exact .inl ⟨key, value, hvalid, False.elim, hheld⟩
  | evictLocalCacheWithGivenKey key =>
    obtain ⟨⟨c₁, victim⟩, hevict, heq⟩ := Option.map_eq_some_iff.1 h
    cases heq
    exact (held_evict hevict).imp_right fun hheld => .inr ⟨key, not_false, hheld⟩

theorem lookup_of_held {o : UnorderedMap Key Value} (h : held c' = (c.capacityBytes, o)) :
    c'.capacityBytes = c.capacityBytes ∧ c'.coveredCache = o :=
  ⟨congrArg Prod.fst h, congrArg Prod.snd h⟩

/-- A request that neither admits nor evicts keeps the set of cached keys. -/
theorem isLocalCached_step
    (haccess : IsAccess operation) (h : c.step operation = some (c', result)) (k : Key) :
    c'.isLocalCached k = c.isLocalCached k := by
  rcases held_step h with hheld | ⟨key, value, -, hcached, hheld⟩ | ⟨key, hnot, -⟩
  · rw [isLocalCached, (lookup_of_held hheld).2, isLocalCached]
  · rw [isLocalCached, (lookup_of_held hheld).2, lookup_insert_eq]
    split
    · next hk => rw [hk, hcached haccess, Option.isSome_some]
    · rfl
  · exact absurd haccess hnot

theorem isLocalCached_admit {result : Bool}
    (h : c.admitLocalCache edge key value isNeighborCached = some (c', result)) {k : Key}
    (hcached : c'.isLocalCached k = true) : k = key ∨ c.isLocalCached k = true := by
  rw [isLocalCached] at hcached
  rcases held_admission h with hheld | ⟨-, hheld⟩
  · rw [(lookup_of_held hheld).2] at hcached
    exact .inr hcached
  · rw [(lookup_of_held hheld).2, lookup_insert_eq] at hcached
    split at hcached
    · next heq => exact .inl heq
    · exact .inr hcached

theorem isLocalCached_evict {victim : Option Value}
    (h : c.evictLocalCacheWithGivenKey key = some (c', victim)) {k : Key}
    (hcached : c'.isLocalCached k = true) : c.isLocalCached k = true := by
  rw [isLocalCached] at hcached
  rcases held_evict h with hheld | hheld
  · rwa [(lookup_of_held hheld).2] at hcached
  · rw [(lookup_of_held hheld).2, lookup_erase_eq] at hcached
    split at hcached
    · cases hcached
    · exact hcached

end Cached

/-! ## What holds of every state -/

/-- What the source says of cached directories: a key that no thread is at has one only if it is not
cached, no check of an eviction request fails, and the byte count is exact. -/
structure Guarded (s : State workercnt) : Prop where
  uncached : ∀ key, (∀ thread, key ∉ (s.activity thread).keys) →
    (s.cacher.getCachedDirectory key).isSome = true → s.cache.isLocalCached key = false
  request : ∀ thread unsent waiting key, s.activity thread = .evictingDirectories unsent waiting →
    key ∈ unsent → (step s (.evictRequest thread key)).isSome = true
  bytes : s.cacher.sizeBytes = DirectoryCacher.heldBytes s.cacher.perkeyDirinfoMap

/-- A cached key has a directory only while its admission is to remove it, and a victim has none
until its request is sent. -/
structure Inv (s : State workercnt) : Prop where
  cached : ∀ key, (s.cacher.getCachedDirectory key).isSome = true →
    s.cache.isLocalCached key = true → s.activity placementProcessor = .admitting key
  unsent : ∀ thread, ∀ key ∈ (s.activity thread).unsentVictims,
    s.cacher.getCachedDirectory key = none
  exact : s.cacher.Exact

variable {s s' : State workercnt}

theorem Inv.guarded (h : Inv s) : Guarded s where
  uncached key hquiet hdirectory := by
    by_contra hcached
    rw [Bool.not_eq_false] at hcached
    have hadmitting := h.cached key hdirectory hcached
    have hkey := hquiet placementProcessor
    rw [hadmitting] at hkey
    exact hkey (List.mem_singleton_self key)
  request thread unsent waiting key hactivity hkey := by
    have hvictims := h.unsent thread key
    rw [hactivity] at hvictims
    simp only [step, hactivity, Option.bind_eq_bind]
    rw [require_bind_of hkey, require_bind_of (hvictims hkey)]
    rfl
  bytes := h.exact.sizeBytes_eq

variable {thread : Thread workercnt} {activity : Activity}

/-- A thread goes on. If it was admitting, the directory of the key is gone, and none of its victims
without a request has a directory. -/
theorem Inv.goTo (h : Inv s)
    (hadmitted : ∀ key, s.activity thread = .admitting key → activity ≠ .admitting key →
      s.cacher.getCachedDirectory key = none)
    (hunsent : ∀ key ∈ activity.unsentVictims, s.cacher.getCachedDirectory key = none) :
    Inv (s.goTo thread activity) where
  cached key hdirectory hcached := by
    have hadmitting := h.cached key hdirectory hcached
    show update s.activity thread activity placementProcessor = .admitting key
    rw [update_apply]
    split
    · next heq =>
      rw [heq] at hadmitting
      by_contra hne
      have hnone := hadmitted key hadmitting hne
      change (s.cacher.getCachedDirectory key).isSome = true at hdirectory
      rw [hnone] at hdirectory
      cases hdirectory
    · exact hadmitting
  unsent other key hkey := by
    change key ∈ (update s.activity thread activity other).unsentVictims at hkey
    rw [update_apply] at hkey
    split at hkey
    · exact hunsent key hkey
    · exact h.unsent other key hkey
  exact := h.exact

/-- A worker goes on with something that is no eviction. -/
theorem Inv.goToQuietly (h : Inv s) (hbusy : ∀ key, s.activity thread ≠ .admitting key)
    (hvictims : activity.unsentVictims = []) :
    Inv (s.goTo thread activity) := by
  refine h.goTo (fun key hkey => absurd hkey (hbusy key)) fun key hkey => ?_
  rw [hvictims] at hkey
  cases hkey

theorem Inv.removeCachedDirectory (h : Inv s) (key : Key) : Inv (s.removeCachedDirectory key) where
  cached k hdirectory hcached := by
    change ((s.cacher.removeCachedDirectoryIfAny key).getCachedDirectory k).isSome = true
      at hdirectory
    rw [DirectoryCacher.getCachedDirectory_remove] at hdirectory
    split at hdirectory
    · cases hdirectory
    · exact h.cached k hdirectory hcached
  unsent thread k hk := by
    show (s.cacher.removeCachedDirectoryIfAny key).getCachedDirectory k = none
    rw [DirectoryCacher.getCachedDirectory_remove]
    split
    · rfl
    · exact h.unsent thread k hk
  exact := h.exact.remove key

variable {cache : LocalCache}

/-- The cached keys are a part of those before. -/
theorem Inv.withCache (h : Inv s)
    (hcache : ∀ key, cache.isLocalCached key = true → s.cache.isLocalCached key = true) :
    Inv { s with cache } where
  cached key hdirectory hcached := h.cached key hdirectory (hcache key hcached)
  unsent := h.unsent
  exact := h.exact

theorem Inv.withLock (h : Inv s) (rwlockForEviction : Option (Thread workercnt)) :
    Inv { s with rwlockForEviction } := ⟨h.cached, h.unsent, h.exact⟩

/-! ## What a step keeps -/

variable {key : Key}

variable {collectedPopularity : CollectedPopularity}

theorem Inv.needLookupBeaconDirectory (h : Inv s) {worker : Fin workercnt}
    (hactivity : s.activity (some worker) = .checking key collectedPopularity) :
    Inv (s.needLookupBeaconDirectory worker key collectedPopularity).1 := by
  have hbusy : ∀ k, s.activity (some worker) ≠ .admitting k := fun k => by
    rw [hactivity]
    exact Activity.noConfusion
  unfold State.needLookupBeaconDirectory
  split
  · split
    · exact h.goToQuietly hbusy rfl
    · exact h.goToQuietly hbusy rfl
  · exact (h.removeCachedDirectory key).goToQuietly hbusy rfl

theorem Inv.updateDirectoryCacher (h : Inv s) {worker : Fin workercnt}
    {directoryInfo : DirectoryInfo}
    (hactivity : s.activity (some worker) = .updating key directoryInfo collectedPopularity)
    (hmeets : Meets s (.updateCacher worker))
    (hupdate : s.updateDirectoryCacher key directoryInfo collectedPopularity = some s') :
    Inv s' ∧ s'.activity = s.activity := by
  unfold State.updateDirectoryCacher at hupdate
  split at hupdate
  · next htracked =>
    obtain ⟨cacher, hcacher, heq⟩ := bind_eq_some_iff.1 hupdate
    cases heq
    have hkept : key ∈ (s.activity (some worker)).keptKey := by
      rw [hactivity]
      exact if_pos htracked
    obtain ⟨hcached, hunsent⟩ := hmeets key hkept
    have hget := DirectoryCacher.getCachedDirectory_update hcacher
    refine ⟨⟨fun k hdirectory hk => ?_, fun thread k hk => ?_, h.exact.update hcacher⟩, rfl⟩
    · change (cacher.getCachedDirectory k).isSome = true at hdirectory
      rw [hget] at hdirectory
      split at hdirectory
      · next heq =>
        rw [heq] at hk ⊢
        exact hcached hk
      · exact h.cached k hdirectory hk
    · show cacher.getCachedDirectory k = none
      rw [hget]
      split
      · next heq =>
        rw [heq] at hk
        exact absurd hk (hunsent thread)
      · exact h.unsent thread k hk
  · cases hupdate
    exact ⟨h.removeCachedDirectory key, rfl⟩

theorem Inv.admitObject (h : Inv s) {edge : EdgeContext} {value : Value}
    {isNeighborCached result : Bool} (hidle : s.activity placementProcessor = .idle)
    (hadmitted : s.cache.admitLocalCache edge key value isNeighborCached = some (cache, result)) :
    Inv (({ s with cache } : State workercnt).goTo placementProcessor (.admitting key)) where
  cached k hdirectory hcached := by
    show update s.activity placementProcessor (.admitting key) placementProcessor = _
    rw [update_self]
    rcases isLocalCached_admit hadmitted hcached with rfl | hold
    · rfl
    · -- the placement processor was idle, so no cached key had a directory
      have hadmitting := h.cached k hdirectory hold
      rw [hidle] at hadmitting
      cases hadmitting
  unsent thread k hk := by
    change k ∈ (update s.activity placementProcessor (.admitting key)
      thread).unsentVictims at hk
    rw [update_apply] at hk
    split at hk
    · cases hk
    · exact h.unsent thread k hk
  exact := h.exact

theorem Inv.evictVictim (h : Inv s) {totalVictims : List Key} {victim : Option Value}
    (hactivity : s.activity thread = .evicting totalVictims)
    (hnone : s.cacher.getCachedDirectory key = none)
    (hevict : s.cache.evictLocalCacheWithGivenKey key = some (cache, victim)) :
    Inv (({ s with cache } : State workercnt).goTo thread
      (.evicting (totalVictims.insert key))) := by
  have hcache : Inv { s with cache } := h.withCache fun k => isLocalCached_evict hevict
  have hvictims := h.unsent thread
  rw [hactivity] at hvictims
  refine hcache.goTo (fun k hk => ?_) fun k hk => ?_
  · change s.activity thread = .admitting k at hk
    rw [hactivity] at hk
    cases hk
  · rcases List.mem_insert_iff.1 hk with rfl | hold
    · exact hnone
    · exact hvictims k hold

/-- A thread goes on with a part of its victims. -/
theorem Inv.goToVictims (h : Inv s) (hbusy : ∀ key, s.activity thread ≠ .admitting key)
    (hvictims : ∀ key ∈ activity.unsentVictims, key ∈ (s.activity thread).unsentVictims) :
    Inv (s.goTo thread activity) :=
  h.goTo (fun key hkey => absurd hkey (hbusy key)) fun key hkey =>
    h.unsent thread key (hvictims key hkey)

theorem Inv.step {action : Action workercnt} {output : Option DirectoryInfo} (h : Inv s)
    (hmeets : Meets s action) (hstep : step s action = some (s', output)) : Inv s' := by
  cases action with
  | accessCache operation =>
    simp only [CachedDirectories.step, bind_eq_some_iff, require_eq_some_iff, pure_eq_some_iff,
      Prod.mk.injEq] at hstep
    obtain ⟨-, haccess, ⟨cache, result⟩, hcache, rfl, -⟩ := hstep
    refine h.withCache fun key hkey => ?_
    rw [← isLocalCached_step haccess hcache key]
    exact hkey
  | needLookup worker key =>
    simp only [CachedDirectories.step, bind_eq_some_iff, require_eq_some_iff, pure_eq_some_iff,
      Prod.mk.injEq] at hstep
    obtain ⟨-, hidle, collectedPopularity, -, rfl, -⟩ := hstep
    refine h.goToQuietly (fun k => ?_) rfl
    rw [hidle]
    exact Activity.noConfusion
  | accessCacher worker =>
    simp only [CachedDirectories.step] at hstep
    split at hstep
    · next hactivity =>
      have hkeeps := h.needLookupBeaconDirectory hactivity
      rw [Option.some.inj hstep] at hkeeps
      exact hkeeps
    · cases hstep
  | lookupResponse worker validDirectory =>
    simp only [CachedDirectories.step] at hstep
    split at hstep
    · next hactivity =>
      simp only [bind_eq_some_iff, pure_eq_some_iff, Prod.mk.injEq] at hstep
      obtain ⟨collectedPopularity, -, rfl, -⟩ := hstep
      refine h.goToQuietly (fun k => ?_) rfl
      rw [hactivity]
      exact Activity.noConfusion
    · next hactivity =>
      cases hstep
      refine (h.removeCachedDirectory _).goToQuietly (fun k => ?_) rfl
      show s.activity (some worker) ≠ _
      rw [hactivity]
      exact Activity.noConfusion
    · cases hstep
  | updateCacher worker =>
    simp only [CachedDirectories.step] at hstep
    split at hstep
    · next hactivity =>
      simp only [bind_eq_some_iff, pure_eq_some_iff, Prod.mk.injEq] at hstep
      obtain ⟨s₁, hupdate, rfl, -⟩ := hstep
      obtain ⟨hinv, hsame⟩ := h.updateDirectoryCacher hactivity hmeets hupdate
      refine hinv.goToQuietly (fun k => ?_) rfl
      rw [hsame, hactivity]
      exact Activity.noConfusion
    · cases hstep
  | redirectedResponse worker isValid =>
    simp only [CachedDirectories.step] at hstep
    split at hstep
    · next hactivity =>
      cases hstep
      have hbusy : ∀ k, s.activity (some worker) ≠ .admitting k := fun k => by
        rw [hactivity]
        exact Activity.noConfusion
      cases isValid with
      | true => exact h.goToQuietly hbusy rfl
      | false => exact (h.removeCachedDirectory _).goToQuietly hbusy rfl
    · cases hstep
  | writelockRequest worker key =>
    simp only [CachedDirectories.step, bind_eq_some_iff, require_eq_some_iff, pure_eq_some_iff,
      Prod.mk.injEq] at hstep
    obtain ⟨-, -, rfl, -⟩ := hstep
    exact h.removeCachedDirectory key
  | admitObject edge key value isNeighborCached =>
    simp only [CachedDirectories.step, bind_eq_some_iff, require_eq_some_iff, pure_eq_some_iff,
      Prod.mk.injEq] at hstep
    obtain ⟨-, hidle, ⟨cache, result⟩, hadmitted, rfl, -⟩ := hstep
    exact h.admitObject hidle hadmitted
  | removeAdmitted =>
    simp only [CachedDirectories.step] at hstep
    split at hstep
    · next key hactivity =>
      cases hstep
      refine (h.removeCachedDirectory key).goTo (fun k hk _ => ?_) fun k hk => by cases hk
      -- the key whose directory was removed is the one that was admitted
      change s.activity placementProcessor = .admitting k at hk
      rw [hactivity] at hk
      cases hk
      show (s.cacher.removeCachedDirectoryIfAny key).getCachedDirectory key = none
      rw [DirectoryCacher.getCachedDirectory_remove, if_pos rfl]
    · cases hstep
  | startEvict thread =>
    simp only [CachedDirectories.step, bind_eq_some_iff, require_eq_some_iff, pure_eq_some_iff,
      Prod.mk.injEq] at hstep
    obtain ⟨-, ⟨hidle, -⟩, rfl, -⟩ := hstep
    refine (h.withLock (some thread)).goToQuietly (fun k => ?_) rfl
    show s.activity thread ≠ _
    rw [hidle]
    exact Activity.noConfusion
  | evictVictim thread key =>
    simp only [CachedDirectories.step] at hstep
    split at hstep
    · next hactivity =>
      simp only [bind_eq_some_iff, require_eq_some_iff, pure_eq_some_iff, Prod.mk.injEq] at hstep
      obtain ⟨⟨cache, victim⟩, hevict, -, -, rfl, -⟩ := hstep
      exact h.evictVictim hactivity hmeets hevict
    · cases hstep
  | finishEvict thread =>
    simp only [CachedDirectories.step] at hstep
    split at hstep
    · next hactivity =>
      cases hstep
      refine (h.withLock none).goToVictims (fun k => ?_) fun k hk => ?_
      · show s.activity thread ≠ _
        rw [hactivity]
        exact Activity.noConfusion
      · show k ∈ (s.activity thread).unsentVictims
        rw [hactivity]
        exact hk
    · cases hstep
  | evictRequest thread key =>
    simp only [CachedDirectories.step] at hstep
    split at hstep
    · next hactivity =>
      simp only [bind_eq_some_iff, require_eq_some_iff, pure_eq_some_iff, Prod.mk.injEq] at hstep
      obtain ⟨-, -, -, -, rfl, -⟩ := hstep
      refine h.goToVictims (fun k => ?_) fun k hk => ?_
      · rw [hactivity]
        exact Activity.noConfusion
      · rw [hactivity]
        exact List.mem_of_mem_erase hk
    · cases hstep
  | evictResponse thread key =>
    simp only [CachedDirectories.step] at hstep
    split at hstep
    · next hactivity =>
      simp only [bind_eq_some_iff, require_eq_some_iff, pure_eq_some_iff, Prod.mk.injEq] at hstep
      obtain ⟨-, -, rfl, -⟩ := hstep
      refine h.goToVictims (fun k => ?_) fun k hk => ?_
      · rw [hactivity]
        exact Activity.noConfusion
      · rw [hactivity]
        exact hk
    · cases hstep
  | timeout thread =>
    simp only [CachedDirectories.step] at hstep
    split at hstep
    · next unsent waiting hactivity =>
      cases hstep
      have hvictims := h.unsent thread
      have hwaiting : ∀ k ∈ (s.activity thread).waitingVictims, _ := hmeets
      rw [hactivity] at hvictims hwaiting
      refine h.goTo (fun k hk => ?_) fun k hk => ?_
      · rw [hactivity] at hk
        cases hk
      · rcases List.mem_append.1 hk with hunsent | hwait
        · exact hvictims k hunsent
        · exact hwaiting k hwait
    · cases hstep
  | finishDirectories thread =>
    simp only [CachedDirectories.step, bind_eq_some_iff, require_eq_some_iff, pure_eq_some_iff,
      Prod.mk.injEq] at hstep
    obtain ⟨-, hactivity, rfl, -⟩ := hstep
    refine h.goToQuietly (fun k => ?_) rfl
    rw [hactivity]
    exact Activity.noConfusion

/-- An edge with any cache before its first lookup. -/
def start (workercnt : Nat) (cache : LocalCache) (popularityCollectionChangeRatio : Popularity) :
    State workercnt where
  cache := cache
  cacher := { popularityCollectionChangeRatio := popularityCollectionChangeRatio }

theorem inv_start (workercnt : Nat) (cache : LocalCache) (ratio : Popularity) :
    Inv (start workercnt cache ratio) where
  cached key hdirectory := by cases hdirectory
  unsent thread key hkey := by cases hkey
  exact := by
    refine ⟨rfl, ?_⟩
    show 0 < uint64Limit
    decide

/-- Cached directories belong to uncached keys only, in every run whose steps meet the condition. -/
theorem directories_guarded_of_runs {cache : LocalCache}
    {popularityCollectionChangeRatio : Popularity}
    {tr : List (Action workercnt × Option DirectoryInfo)}
    (hrun : Runs step Meets (start workercnt cache popularityCollectionChangeRatio) tr s) :
    Guarded s :=
  (hrun.invariant (inv_start workercnt cache popularityCollectionChangeRatio) Inv.step).guarded

/-! ## Runs -/

/-- One worker, with a small cache. -/
def smallEdge : State 1 := start 1 (.empty 1000 200 100) (1 / 10)

/-- The worker tracks a key and gets a directory for it. -/
def lookUp (key : Key) (targetEdgeIdx : Nat) : List (Action 1) := [
  .accessCache (.updateLocalCache LocalCache.halfEdge key (.ofSize 9) true true),
  .needLookup 0 key,
  .accessCacher 0,
  .lookupResponse 0 (some ⟨targetEdgeIdx⟩)]

/-- The placement processor admits a key. -/
def admission (key : Key) : List (Action 1) := [
  .admitObject LocalCache.halfEdge key (.ofSize 9) true,
  .removeAdmitted]

/-- The placement processor takes a key out of the cache. -/
def eviction (key : Key) : List (Action 1) := [
  .startEvict placementProcessor,
  .evictVictim placementProcessor key,
  .finishEvict placementProcessor]

/-- A key is looked up, then admitted, and later evicted. -/
theorem directories_guarded_thirteen :
    ∃ tr s, Runs step Meets smallEdge tr s ∧ tr.length = 13 ∧ Guarded s := by
  let actions := lookUp (LocalCache.byteKey 1) 3 ++ [.updateCacher 0, .redirectedResponse 0 true] ++
    admission (LocalCache.byteKey 1) ++ eviction (LocalCache.byteKey 1) ++
    [.evictRequest placementProcessor (LocalCache.byteKey 1),
      .evictResponse placementProcessor (LocalCache.byteKey 1)]
  have hexec : (exec step Meets smallEdge actions).any (fun _ => true) = true := by decide +kernel
  obtain ⟨tr, s, hrun, htr, -⟩ := exists_runs_of_any hexec
  have hlength : tr.length = 13 := by
    have hmap := congrArg List.length htr
    rwa [List.length_map] at hmap
  exact ⟨tr, s, hrun, hlength, directories_guarded_of_runs hrun⟩

/-- An admission between the question of a worker and its update: the key is cached and keeps a
directory, and the process ends at its eviction. -/
theorem cached_key_has_directory :
    ∃ tr s, Runs step anyAction smallEdge tr s ∧
      (∀ thread, LocalCache.byteKey 1 ∉ (s.activity thread).keys) ∧
      (s.cacher.getCachedDirectory (LocalCache.byteKey 1)).isSome = true ∧
      s.cache.isLocalCached (LocalCache.byteKey 1) = true ∧
      ∃ tr' s', Runs step anyAction s tr' s' ∧
        s'.activity placementProcessor = .evictingDirectories [LocalCache.byteKey 1] [] ∧
        step s' (.evictRequest placementProcessor (LocalCache.byteKey 1)) = none := by
  let fails (s' : State 1) : Bool :=
    decide (s'.activity placementProcessor = .evictingDirectories [LocalCache.byteKey 1] []) &&
      (step s' (.evictRequest placementProcessor (LocalCache.byteKey 1))).isNone
  have hexec : (exec step anyAction smallEdge (lookUp (LocalCache.byteKey 1) 3 ++
      admission (LocalCache.byteKey 1) ++ [.updateCacher 0, .redirectedResponse 0 true])).any
      (fun s => decide (∀ thread, LocalCache.byteKey 1 ∉ (s.activity thread).keys) &&
        (s.cacher.getCachedDirectory (LocalCache.byteKey 1)).isSome &&
        s.cache.isLocalCached (LocalCache.byteKey 1) &&
        (exec step anyAction s (eviction (LocalCache.byteKey 1))).any fails) = true := by
    decide +kernel
  obtain ⟨tr, s, hrun, -, hs⟩ := exists_runs_of_any hexec
  simp only [Bool.and_eq_true, decide_eq_true_eq] at hs
  obtain ⟨⟨⟨hquiet, hdirectory⟩, hcached⟩, hfails⟩ := hs
  obtain ⟨tr', s', hrun', -, hs'⟩ := exists_runs_of_any hfails
  simp only [fails, Bool.and_eq_true, decide_eq_true_eq, Option.isNone_iff_eq_none] at hs'
  exact ⟨tr, s, hrun, hquiet, hdirectory, hcached, tr', s', hrun', hs'⟩

end CachedDirectories

end Covered.Edge
