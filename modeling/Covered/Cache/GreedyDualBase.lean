import Mathlib.Algebra.Order.WithTop.Untop0
import Mathlib.Data.Rat.Cast.Order
import Covered.Cache.CacheWrapper
import Covered.Lib.Execution
import Covered.Lib.PlaceTable

/-!
# The greedy dual caches

A greedy dual cache gives every object a value when it is admitted and at every hit: the aging
factor `currentL` plus a growth that depends on the class. The objects are in a multimap ordered by
their values, and the victim is the first one. `GDSFCache` and `LfuDACache` also count the
references of an object; `GDSizeCache` does not.

There are two functions that evict. One takes the first object of the multimap and makes its value
the aging factor; the other takes the object of a given key (`evict`). The local cache asks for the
victim with `getVictimKey` and evicts that key, so it calls only the second one, and nothing calls
the first. `step` is the local cache; `Driven` adds the values of the victims so far.

Values are exact. The quotient by an object size of `0` is infinite, as it is for floating-point
numbers. The counters of references are natural numbers.
-/

set_option autoImplicit false

namespace Covered.Cache.GreedyDual

open Common Lib Lib.Checked Lib.Execution

/-! ## The base class -/

/-- The value of an object. -/
abbrev Hval := WithTop ℚ

/-- An element of the multimap. -/
structure ValueMapEntry where
  hval : Hval
  key : Key
  value : Value
deriving DecidableEq

/-- The fields of the base class, and the counters of references of the derived classes. -/
structure GreedyDualBase where
  cacheSize : Nat
  currentSize : Nat := 0
  currentL : Hval := 0
  valueMap : LinkedList ValueMapEntry := .empty
  cacheMap : UnorderedMap Key Nat := ∅
  refsMap : UnorderedMap Key Nat := ∅

/-- A virtual function of the derived class: the value of a cached or being-admitted object. -/
abbrev AgeValue := GreedyDualBase → Key → Value → Option Hval

namespace GreedyDualBase

/-- A new value for a cached object. -/
def hit (ageValue : AgeValue) (s : GreedyDualBase) (key : Key) : Option GreedyDualBase := do
  let it ← s.cacheMap.lookup key
  let entry ← s.valueMap.get it
  let hval ← ageValue s key entry.value
  let erased := s.valueMap.erase it
  return { s with
    valueMap := erased.insertSorted ValueMapEntry.hval ⟨hval, key, entry.value⟩
    cacheMap := s.cacheMap.insert key erased.next }

/-- Returns the value of a cached key. -/
def lookup (ageValue : AgeValue) (s : GreedyDualBase) (key : Key) :
    Option (GreedyDualBase × Option Value) :=
  match s.cacheMap.lookup key with
  | none => some (s, none)
  | some _ => do
      let s' ← s.hit ageValue key
      let it ← s'.cacheMap.lookup key
      let entry ← s'.valueMap.get it
      return (s', some entry.value)

/-- Returns whether the key is cached. -/
def update (ageValue : AgeValue) (s : GreedyDualBase) (key : Key) (value : Value) :
    Option (GreedyDualBase × Bool) :=
  match s.cacheMap.lookup key with
  | none => some (s, false)
  | some it => do
      let entry ← s.valueMap.get it
      let s' ← ({ s with valueMap := s.valueMap.set it { entry with value := value } }).hit
        ageValue key
      let increased ← uint64Add s'.currentSize value.valuesize
      let currentSize := uint64Minus increased entry.value.valuesize
      require (¬ currentSize > s.cacheSize)
      return ({ s' with currentSize := currentSize }, true)

/-- Admit a key that is not cached. Too large an object and a full cache end the process. -/
def admitObject (ageValue : AgeValue) (s : GreedyDualBase) (key : Key) (value : Value) :
    Option GreedyDualBase := do
  require (s.cacheMap.lookup key = none)
  require (¬ objectSize key value ≥ s.cacheSize)
  require (¬ (s.currentSize + objectSize key value) % uint64Limit > s.cacheSize)
  let ageVal ← ageValue s key value
  let valueBytes ← uint64Add 16 (objectSize key value)
  let size₁ ← uint64Add s.currentSize valueBytes
  let lookupBytes ← uint64Add key.getKeyLength 8
  let size₂ ← uint64Add size₁ lookupBytes
  return { s with
    valueMap := s.valueMap.insertSorted ValueMapEntry.hval ⟨ageVal, key, value⟩
    cacheMap := s.cacheMap.insert key s.valueMap.next
    currentSize := size₂ }

/-- The key of the first object. -/
def getVictimKey (s : GreedyDualBase) : Option Key :=
  s.valueMap.toList.head?.map ValueMapEntry.key

/-- The object at an iterator erased from both maps, with its bytes. -/
def eraseObject (s : GreedyDualBase) (it : Nat) (entry : ValueMapEntry) :
    Option GreedyDualBase := do
  let valueBytes ← uint64Add 16 (objectSize entry.key entry.value)
  let lookupBytes ← uint64Add entry.key.getKeyLength 8
  return { s with
    valueMap := s.valueMap.erase it
    cacheMap := s.cacheMap.erase entry.key
    currentSize := uint64Minus (uint64Minus s.currentSize valueBytes) lookupBytes }

/-- Evict the given key if it is cached. The aging factor stays as it is. -/
def evict (s : GreedyDualBase) (key : Key) : Option (GreedyDualBase × Option Value) :=
  match s.cacheMap.lookup key with
  | none => some (s, none)
  | some it => do
      let entry ← s.valueMap.get it
      require (key = entry.key)
      let s' ← s.eraseObject it entry
      return (s', some entry.value)

/-- The value of a cached key. -/
def hvalOf (s : GreedyDualBase) (key : Key) : Option Hval :=
  ((s.cacheMap.lookup key).bind s.valueMap.get).map ValueMapEntry.hval

end GreedyDualBase

/-! ## The derived classes -/

/-- A quotient of floating-point numbers. -/
def quotient (x y : Nat) : Hval := if y = 0 then ⊤ else ((x / y : ℚ) : WithTop ℚ)

/-! `GDSFCache` and `LfuDACache` have the functions of `ReferenceCounting`; they differ in the value
of an object. -/

namespace ReferenceCounting

open GreedyDualBase

/-- One more reference to a cached key. -/
def countReference (s : GreedyDualBase) (key : Key) : GreedyDualBase :=
  match s.refsMap.lookup key with
  | none => s
  | some frequency => { s with refsMap := s.refsMap.insert key (frequency + 1) }

def lookup (ageValue : AgeValue) (s : GreedyDualBase) (key : Key) :
    Option (GreedyDualBase × Option Value) := do
  let (s', value) ← GreedyDualBase.lookup ageValue (countReference s key) key
  require ((s.refsMap.lookup key).isSome = true → value.isSome = true)
  return (s', value)

def update (ageValue : AgeValue) (s : GreedyDualBase) (key : Key) (value : Value) :
    Option (GreedyDualBase × Bool) := do
  let (s', isHit) ← GreedyDualBase.update ageValue (countReference s key) key value
  require ((s.refsMap.lookup key).isSome = true → isHit = true)
  return (s', isHit)

def admitObject (ageValue : AgeValue) (s : GreedyDualBase) (key : Key) (value : Value) :
    Option GreedyDualBase := do
  require (s.refsMap.lookup key = none)
  let statBytes ← uint64Add key.getKeyLength 8
  let size ← uint64Add s.currentSize statBytes
  GreedyDualBase.admitObject ageValue
    { s with refsMap := s.refsMap.insert key 1, currentSize := size } key value

/-- The counter of an evicted key is erased. -/
def eraseReferences (s : GreedyDualBase) (key : Key) : Option GreedyDualBase := do
  require ((s.refsMap.lookup key).isSome = true)
  let statBytes ← uint64Add key.getKeyLength 8
  return { s with
    refsMap := s.refsMap.erase key
    currentSize := uint64Minus s.currentSize statBytes }

def evict (s : GreedyDualBase) (key : Key) : Option (GreedyDualBase × Option Value) := do
  let (s', value) ← GreedyDualBase.evict s key
  match value with
  | none => return (s', none)
  | some v => (eraseReferences s' key).map fun s'' => (s'', some v)

end ReferenceCounting

namespace GDSFCache

def ageValue : AgeValue := fun s key value => do
  let frequency ← s.refsMap.lookup key
  return s.currentL + quotient frequency (objectSize key value)

end GDSFCache

namespace GDSizeCache

def ageValue : AgeValue := fun s key value =>
  some (s.currentL + quotient 1 (objectSize key value))

end GDSizeCache

namespace LfuDACache

def ageValue : AgeValue := fun s key _ => do
  let frequency ← s.refsMap.lookup key
  return s.currentL + quotient frequency 1

end LfuDACache

/-- The classes that use the aging factor. -/
inductive GreedyDualClass
  | gdsfCache
  | gdSizeCache
  | lfuDaCache
deriving DecidableEq

namespace GreedyDualClass

/-- The class counts references. -/
def countsReferences : GreedyDualClass → Bool
  | gdsfCache => true
  | gdSizeCache => false
  | lfuDaCache => true

def ageValue : GreedyDualClass → AgeValue
  | gdsfCache => GDSFCache.ageValue
  | gdSizeCache => GDSizeCache.ageValue
  | lfuDaCache => LfuDACache.ageValue

def lookup : GreedyDualClass → GreedyDualBase → Key → Option (GreedyDualBase × Option Value)
  | gdsfCache => ReferenceCounting.lookup GDSFCache.ageValue
  | gdSizeCache => GreedyDualBase.lookup GDSizeCache.ageValue
  | lfuDaCache => ReferenceCounting.lookup LfuDACache.ageValue

def update : GreedyDualClass → GreedyDualBase → Key → Value → Option (GreedyDualBase × Bool)
  | gdsfCache => ReferenceCounting.update GDSFCache.ageValue
  | gdSizeCache => GreedyDualBase.update GDSizeCache.ageValue
  | lfuDaCache => ReferenceCounting.update LfuDACache.ageValue

def admitObject : GreedyDualClass → GreedyDualBase → Key → Value → Option GreedyDualBase
  | gdsfCache => ReferenceCounting.admitObject GDSFCache.ageValue
  | gdSizeCache => GreedyDualBase.admitObject GDSizeCache.ageValue
  | lfuDaCache => ReferenceCounting.admitObject LfuDACache.ageValue

def evict : GreedyDualClass → GreedyDualBase → Key → Option (GreedyDualBase × Option Value)
  | gdsfCache => ReferenceCounting.evict
  | gdSizeCache => GreedyDualBase.evict
  | lfuDaCache => ReferenceCounting.evict

end GreedyDualClass

/-! ## The local cache -/

/-- A cache with the values of the objects that it has evicted. -/
structure Driven where
  cache : GreedyDualBase
  evicted : List Hval := []

def create (capacityBytes : Nat) : Driven where
  cache := { cacheSize := capacityBytes }

/-- What the local cache calls. -/
inductive Action
  | lookup (key : Key)
  | update (key : Key) (value : Value)
  | admitObject (key : Key) (value : Value)
  | evictVictim
deriving DecidableEq

/-- The object that gets a value. -/
def Action.valuedKey? : Action → Option Key
  | .lookup key => some key
  | .update key _ => some key
  | .admitObject key _ => some key
  | .evictVictim => none

/-- What a call returns. -/
inductive Output
  | value (value : Option Value)
  | flag (isCached : Bool)
  | victim (victim : Option (Key × Value))
  | void

/-- The victim is asked for and evicted by its key. -/
def evictVictim (c : GreedyDualClass) (d : Driven) : Option (Driven × Output) :=
  match d.cache.getVictimKey with
  | none => some (d, .victim none)
  | some key => do
      let (cache, value) ← c.evict d.cache key
      return ({ cache := cache, evicted := (d.cache.hvalOf key).toList ++ d.evicted },
        .victim (value.map fun v => (key, v)))

/-- One call of the local cache; `none` is a failed assertion or an exit. -/
def step (c : GreedyDualClass) (d : Driven) : Action → Option (Driven × Output)
  | .lookup key => (c.lookup d.cache key).map fun r => ({ d with cache := r.1 }, .value r.2)
  | .update key value =>
      (c.update d.cache key value).map fun r => ({ d with cache := r.1 }, .flag r.2)
  | .admitObject key value =>
      (c.admitObject d.cache key value).map fun s => ({ d with cache := s }, .void)
  | .evictVictim => evictVictim c d

end Covered.Cache.GreedyDual
