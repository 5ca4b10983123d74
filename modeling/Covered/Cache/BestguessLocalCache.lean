import Covered.Cache.CacheWrapper
import Covered.Lib.Execution
import Covered.Lib.IndexedList

/-!
# The BestGuess cache

A list of objects in LRU order, with a lookup map and a virtual clock. An access or an admission
stamps the object with the clock and moves it to the head. An edge also remembers the stamps of the
victims of its neighbors, and places a new object at the edge with the oldest victim, whose stamp it
then forgets.

The functions of the base class around the cache check the size of an object against the capacity.
The clock is an unsigned 64-bit number. The iteration order of the table of neighbors is an argument
of the query for a placement. An eviction gets the variable of its caller for the value and does not
assign it.
-/

set_option autoImplicit false

namespace Covered.Cache.Bestguess

open Common Lib Lib.Checked Lib.Execution

/-- A cached object with the time of its last access. -/
structure BestGuessItem where
  key : Key
  value : Value
  vtime : Nat
deriving DecidableEq

/-- The bytes of the object and of the time. -/
def BestGuessItem.getSizeForCapacity (item : BestGuessItem) : Nat :=
  objectSize item.key item.value + 8

/-- Bytes of an entry of the lookup map: the key and an iterator. -/
def lookupBytes (key : Key) : Nat := key.getKeyLength + 8

structure BestGuessLocalCache where
  edgeIdx : Nat
  capacityBytes : Nat
  bestguessCache : LinkedList BestGuessItem := .empty
  lookupMap : UnorderedMap Key Nat := ∅
  peredgeVictimVtime : UnorderedMap Nat Nat := ∅
  curVtime : Nat := 0
  size : Nat := 0

/-- A new cache of an edge. -/
def create (edgeIdx capacityBytes : Nat) : BestGuessLocalCache where
  edgeIdx := edgeIdx
  capacityBytes := capacityBytes

namespace BestGuessLocalCache

/-- `LocalCacheBase::isValidObjsize_`; the cache has no check of its own. -/
def isValidObjsize (s : BestGuessLocalCache) (key : Key) (value : Value) : Bool :=
  decide (s.capacityBytes > objectSize key value)

/-- `cur_vtime_++`. -/
def nextVtime (s : BestGuessLocalCache) : Nat := (s.curVtime + 1) % uint64Limit

def isLocalCached (s : BestGuessLocalCache) (key : Key) : Bool := (s.lookupMap.lookup key).isSome

/-- The object erased from the list and put at the head with a new stamp. -/
def touch (s : BestGuessLocalCache) (it : Nat) (key : Key) (value : Value) : BestGuessLocalCache :=
  let erased := s.bestguessCache.erase it
  { s with
    bestguessCache := erased.pushFront ⟨key, value, s.curVtime⟩
    lookupMap := s.lookupMap.insert key erased.next
    curVtime := s.nextVtime }

def getLocalCache (s : BestGuessLocalCache) (key : Key) :
    Option (BestGuessLocalCache × Option Value) :=
  match s.lookupMap.lookup key with
  | none => some ({ s with curVtime := s.nextVtime }, none)
  | some it => do
      let item ← s.bestguessCache.get it
      require (s.isValidObjsize key item.value = true)
      return (s.touch it key item.value, some item.value)

/-- Returns whether the key is cached and whether its value has been updated. -/
def updateLocalCache (s : BestGuessLocalCache) (key : Key) (value : Value) :
    Option (BestGuessLocalCache × Bool × Bool) :=
  match s.lookupMap.lookup key with
  | none => some ({ s with curVtime := s.nextVtime }, false, false)
  | some it =>
      -- a value that is too large is refused before the clock goes on
      if s.isValidObjsize key value = false then some (s, true, false)
      else do
        let item ← s.bestguessCache.get it
        let size ←
          (if value.valuesize > item.value.valuesize then
            uint64Add s.size (value.valuesize - item.value.valuesize)
          else if value.valuesize < item.value.valuesize then
            some (uint64Minus s.size (item.value.valuesize - value.valuesize))
          else some s.size)
        return ({ s.touch it key value with size := size }, true, true)

/-- Admit a key. A key that is already cached only causes a warning. -/
def admitLocalCache (s : BestGuessLocalCache) (key : Key) (value : Value) :
    Option BestGuessLocalCache := do
  require (s.isValidObjsize key value = true)
  match s.lookupMap.lookup key with
  | some _ => return s
  | none => do
      let item : BestGuessItem := ⟨key, value, s.curVtime⟩
      let size ← uint64Add s.size item.getSizeForCapacity
      let size' ← uint64Add size (lookupBytes key)
      return { s with
        bestguessCache := s.bestguessCache.pushFront item
        lookupMap := s.lookupMap.insert key s.bestguessCache.next
        curVtime := s.nextVtime
        size := size' }

/-- The key at the tail. -/
def getLocalCacheVictimKeys (s : BestGuessLocalCache) : Option Key :=
  s.bestguessCache.back.map fun tail => tail.2.key

/-- Evict a key, if it is cached; `value` is what the variable of the caller holds. -/
def evictLocalCacheWithGivenKey (s : BestGuessLocalCache) (key : Key) (value : Value) :
    Option (BestGuessLocalCache × Bool × Value) :=
  match s.lookupMap.lookup key with
  | none => some (s, false, value)
  | some it => do
      let item ← s.bestguessCache.get it
      require (s.isValidObjsize key value = true)
      return ({ s with
        bestguessCache := s.bestguessCache.erase it
        lookupMap := s.lookupMap.erase key
        size := uint64Minus (uint64Minus s.size item.getSizeForCapacity) (lookupBytes key) },
        true, value)

/-- The stamp of the victim of a neighbor; the edge itself is not one. -/
def updateNeighborVictimVtime (s : BestGuessLocalCache)
    (neighborEdgeIdx neighborVictimVtime : Nat) : Option BestGuessLocalCache := do
  require (neighborEdgeIdx ≠ s.edgeIdx)
  return { s with
    peredgeVictimVtime := s.peredgeVictimVtime.insert neighborEdgeIdx neighborVictimVtime }

/-- The stamp of the victim, zero if there is none. -/
def getLocalVictimVtime (s : BestGuessLocalCache) : Nat :=
  (s.bestguessCache.back.map fun tail => tail.2.vtime).getD 0

/-- One neighbor in the search for the oldest victim. -/
def olderVictim (edgeIdx : Nat) (best : Nat × Nat) (neighbor : (_ : Nat) × Nat) :
    Option (Nat × Nat) := do
  require (neighbor.1 ≠ edgeIdx)
  return if neighbor.2 < best.2 then (neighbor.1, neighbor.2) else best

/-- The edge with the oldest victim; `order` is the iteration order of the neighbors. -/
def getPlacementEdgeIdx (s : BestGuessLocalCache) (order : List ((_ : Nat) × Nat)) :
    Option (BestGuessLocalCache × Nat) := do
  require (order.Perm s.peredgeVictimVtime.entries)
  let best ← order.foldlM (olderVictim s.edgeIdx) (s.edgeIdx, s.getLocalVictimVtime)
  return (if best.1 ≠ s.edgeIdx then
    { s with peredgeVictimVtime := s.peredgeVictimVtime.erase best.1 } else s, best.1)

def getSizeForCapacity (s : BestGuessLocalCache) : Nat := s.size

end BestGuessLocalCache

/-- The operations of the cache. -/
inductive Action
  | getLocalCache (key : Key)
  | updateLocalCache (key : Key) (value : Value)
  | admitLocalCache (key : Key) (value : Value)
  | getLocalCacheVictimKeys
  | evictLocalCacheWithGivenKey (key : Key) (value : Value)
  | updateNeighborVictimVtime (neighborEdgeIdx neighborVictimVtime : Nat)
  | getPlacementEdgeIdx (order : List ((_ : Nat) × Nat))
deriving DecidableEq

/-- What an operation returns. -/
inductive Output
  | value (value : Option Value)
  | updated (isLocalCached isSuccessful : Bool)
  | victim (key : Option Key)
  | evicted (isEvict : Bool) (value : Value)
  | edge (edgeIdx : Nat)
  | void
deriving DecidableEq

/-- One operation; `none` is a failed assertion, an invalid iterator, an overflow or an exit. -/
def step (s : BestGuessLocalCache) : Action → Option (BestGuessLocalCache × Output)
  | .getLocalCache key => (s.getLocalCache key).map fun r => (r.1, .value r.2)
  | .updateLocalCache key value =>
      (s.updateLocalCache key value).map fun r => (r.1, .updated r.2.1 r.2.2)
  | .admitLocalCache key value => (s.admitLocalCache key value).map fun t => (t, .void)
  | .getLocalCacheVictimKeys => some (s, .victim s.getLocalCacheVictimKeys)
  | .evictLocalCacheWithGivenKey key value =>
      (s.evictLocalCacheWithGivenKey key value).map fun r => (r.1, .evicted r.2.1 r.2.2)
  | .updateNeighborVictimVtime neighborEdgeIdx neighborVictimVtime =>
      (s.updateNeighborVictimVtime neighborEdgeIdx neighborVictimVtime).map fun t => (t, .void)
  | .getPlacementEdgeIdx order => (s.getPlacementEdgeIdx order).map fun r => (r.1, .edge r.2)

/-! ## What the cache is for -/

namespace BestGuessLocalCache

/-- The object of a key. -/
def resident (s : BestGuessLocalCache) (key : Key) : Option BestGuessItem :=
  found s.lookupMap s.bestguessCache.get key

/-- The key that an operation accesses or admits: a get of a cached key, an update that is not
refused, and an admission of a key that is not cached. -/
def used (s : BestGuessLocalCache) : Action → Option Key
  | .getLocalCache key => if s.isLocalCached key then some key else none
  | .updateLocalCache key value =>
      if s.isLocalCached key && s.isValidObjsize key value then some key else none
  | .admitLocalCache key _ => if s.isLocalCached key then none else some key
  | _ => none

end BestGuessLocalCache

/-- The cache with the number of operations so far, and for each key the operation that accessed or
admitted it last. -/
structure Observed where
  cache : BestGuessLocalCache
  clock : Nat := 0
  lastUse : Key → Nat := fun _ => 0

namespace Observed

/-- The last uses after an operation. -/
def lastUseAfter (s : Observed) (a : Action) : Key → Nat :=
  (s.cache.used a).elim s.lastUse fun key => Function.update s.lastUse key s.clock

def step (s : Observed) (a : Action) : Option (Observed × Output) :=
  (Bestguess.step s.cache a).map fun r => (⟨r.1, s.clock + 1, s.lastUseAfter a⟩, r.2)

end Observed

/-- The operations that the cache handles: the clock does not wrap around, nor does the size of an
object, and the variable of the caller of an eviction already holds the value. -/
def Meets (s : BestGuessLocalCache) : Action → Prop
  | .getLocalCache _ => s.curVtime + 1 < uint64Limit
  | .updateLocalCache key value =>
      s.curVtime + 1 < uint64Limit ∧ key.getKeyLength + value.valuesize < 2 ^ 32
  | .admitLocalCache key value =>
      s.curVtime + 1 < uint64Limit ∧ key.getKeyLength + value.valuesize < 2 ^ 32
  | .evictLocalCacheWithGivenKey key value => ∀ item ∈ s.resident key, value = item.value
  | _ => True

instance (s : BestGuessLocalCache) : (a : Action) → Decidable (Meets s a)
  | .getLocalCache _ => inferInstanceAs (Decidable (s.curVtime + 1 < uint64Limit))
  | .updateLocalCache key value => inferInstanceAs (Decidable
      (s.curVtime + 1 < uint64Limit ∧ key.getKeyLength + value.valuesize < 2 ^ 32))
  | .admitLocalCache key value => inferInstanceAs (Decidable
      (s.curVtime + 1 < uint64Limit ∧ key.getKeyLength + value.valuesize < 2 ^ 32))
  | .getLocalCacheVictimKeys => inferInstanceAs (Decidable True)
  | .evictLocalCacheWithGivenKey key value =>
      inferInstanceAs (Decidable (∀ item ∈ s.resident key, value = item.value))
  | .updateNeighborVictimVtime _ _ => inferInstanceAs (Decidable True)
  | .getPlacementEdgeIdx _ => inferInstanceAs (Decidable True)

end Covered.Cache.Bestguess
