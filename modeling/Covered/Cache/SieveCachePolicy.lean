import Covered.Cache.CacheWrapper
import Covered.Lib.ClockHand
import Covered.Lib.Execution
import Covered.Lib.IndexedList

/-!
# The SIEVE policy

A queue of objects with visited flags, a lookup table and a hand. A new object enters at the head.
The hand goes from the tail to the head, clears the flags that it passes and stops at the first
object that has not been visited, which is the victim; then it is put one step further.

The hand is an iterator of the queue or its end. An object size is computed with 32 bits before it
is widened. `none` is an invalid iterator or an overflow of the size.
-/

set_option autoImplicit false

namespace Covered.Cache.Sieve

open Common Lib Lib.Checked Lib.Execution

/-- A cached object with its flag. -/
structure SieveItem where
  key : Key
  value : Value
  isVisited : Bool := false
deriving DecidableEq

namespace SieveItem

def setValue (item : SieveItem) (value : Value) : SieveItem := { item with value := value }

def setVisited (item : SieveItem) : SieveItem := { item with isVisited := true }

def resetVisited (item : SieveItem) : SieveItem := { item with isVisited := false }

/-- The bytes of the object and of the flag. -/
def getSizeForCapacity (item : SieveItem) : Nat := objectSize item.key item.value + 1

end SieveItem

/-- Bytes of an entry of the lookup table: the key and an iterator. -/
def lookupBytes (key : Key) : Nat := key.getKeyLength + 8

structure SieveCachePolicy where
  sieveQueue : LinkedList SieveItem := .empty
  keyLookup : UnorderedMap Key Nat := ∅
  handIter : Option Nat := none
  size : Nat := 0

namespace SieveCachePolicy

/-- The item of a cached key with its iterator; `none` if the iterator is not valid. -/
def itemAt (s : SieveCachePolicy) (key : Key) (it : Nat) : Option SieveItem := do
  let item ← s.sieveQueue.get it
  require (item.key = key)
  return item

/-- The value of a cached key, which is visited now. -/
def get (s : SieveCachePolicy) (key : Key) : Option (SieveCachePolicy × Option Value) :=
  match s.keyLookup.lookup key with
  | none => some (s, none)
  | some it => do
      let item ← s.itemAt key it
      return ({ s with sieveQueue := s.sieveQueue.set it item.setVisited }, some item.value)

/-- A new value for a cached key, which is visited now. -/
def update (s : SieveCachePolicy) (key : Key) (value : Value) :
    Option (SieveCachePolicy × Bool) :=
  match s.keyLookup.lookup key with
  | none => some (s, false)
  | some it => do
      let item ← s.itemAt key it
      let size ← uint64Add (uint64Minus s.size item.value.valuesize) value.valuesize
      return ({ s with
        sieveQueue := s.sieveQueue.set it (item.setVisited.setValue value)
        size := size }, true)

/-- A new object at the head. A key that is already cached only causes a warning. -/
def admitObject (s : SieveCachePolicy) (key : Key) (value : Value) : Option SieveCachePolicy :=
  match s.keyLookup.lookup key with
  | some _ => some s
  | none => do
      let item : SieveItem := ⟨key, value, false⟩
      let size ← uint64Add s.size item.getSizeForCapacity
      let size' ← uint64Add size (lookupBytes key)
      return { s with
        sieveQueue := s.sieveQueue.pushFront item
        keyLookup := s.keyLookup.insert key s.sieveQueue.next
        size := size' }

/-- Where a sweep starts: at the hand, or at the tail if the hand is at the end. -/
def start (s : SieveCachePolicy) : Option Nat :=
  match s.handIter with
  | none => s.sieveQueue.prev none
  | some it => some it

/-- The next victim. The hand is left one step before it. -/
def getVictimKey (s : SieveCachePolicy) : Option (SieveCachePolicy × Option Key) :=
  if s.sieveQueue.toList.length > 0 then do
    let cur ← s.start
    let (queue, victim) ←
      LinkedList.sweep SieveItem.isVisited SieveItem.resetVisited s.sieveQueue cur
    let hand := if queue.begin = some victim then none else queue.prev (some victim)
    let item ← queue.get victim
    return ({ s with sieveQueue := queue, handIter := hand }, some item.key)
  else some (s, none)

/-- Evict a key, if it is cached. -/
def evictWithGivenKey (s : SieveCachePolicy) (key : Key) :
    Option (SieveCachePolicy × Option Value) :=
  match s.keyLookup.lookup key with
  | none => some (s, none)
  | some it => do
      let item ← s.itemAt key it
      return ({ s with
        sieveQueue := s.sieveQueue.erase it
        keyLookup := s.keyLookup.erase key
        size := uint64Minus (uint64Minus s.size (lookupBytes key)) item.getSizeForCapacity },
        some item.value)

def getSizeForCapacity (s : SieveCachePolicy) : Nat := s.size

end SieveCachePolicy

/-- The operations. An eviction asks for the victim and evicts it. -/
inductive Action
  | get (key : Key)
  | update (key : Key) (value : Value)
  | admitObject (key : Key) (value : Value)
  | evict
deriving DecidableEq

/-- What an operation returns. -/
inductive Output
  | value (value : Option Value)
  | updated (isLocalCached : Bool)
  | evicted (victim : Option (Key × Option Value))
  | void
deriving DecidableEq

/-- The victim and its eviction. -/
def evictVictim (s : SieveCachePolicy) :
    Option (SieveCachePolicy × Option (Key × Option Value)) := do
  let (s, victim) ← s.getVictimKey
  match victim with
  | none => return (s, none)
  | some key => do
      let (t, value) ← s.evictWithGivenKey key
      return (t, some (key, value))

def step (s : SieveCachePolicy) : Action → Option (SieveCachePolicy × Output)
  | .get key => (s.get key).map fun r => (r.1, .value r.2)
  | .update key value => (s.update key value).map fun r => (r.1, .updated r.2)
  | .admitObject key value => (s.admitObject key value).map fun t => (t, .void)
  | .evict => (evictVictim s).map fun r => (r.1, .evicted r.2)

/-- The operations that the policy counts right: the object of a cached key does not wrap around 32
bits, neither before an update nor after it. -/
def Meets (s : SieveCachePolicy) : Action → Prop
  | .update key value => ∀ item ∈ found s.keyLookup s.sieveQueue.get key,
      key.getKeyLength + item.value.valuesize < 2 ^ 32 ∧
        key.getKeyLength + value.valuesize < 2 ^ 32
  | _ => True

instance (s : SieveCachePolicy) : (a : Action) → Decidable (Meets s a)
  | .get _ => inferInstanceAs (Decidable True)
  | .update key value => inferInstanceAs (Decidable
      (∀ item ∈ found s.keyLookup s.sieveQueue.get key,
        key.getKeyLength + item.value.valuesize < 2 ^ 32 ∧
          key.getKeyLength + value.valuesize < 2 ^ 32))
  | .admitObject _ _ => inferInstanceAs (Decidable True)
  | .evict => inferInstanceAs (Decidable True)

end Covered.Cache.Sieve
