import Mathlib.Algebra.Order.BigOperators.Group.Finset
import Mathlib.Algebra.BigOperators.Group.Finset.Piecewise
import Covered.Cache.CacheWrapper
import Covered.Lib.Execution
import Covered.Lib.LinkedList

/-!
# The segmented LRU policy

Four LRU lists share the capacity equally. A new item goes to the lowest list with room, a hit moves
an item to the head of the next higher list, and a list that is over its share is cooled: its tail
moves to the head of the next lower list, which may then be cooled in turn.

Two paths of the code break its counters or its choice of a victim. A hit in the top list puts the
item back with the new value and leaves the byte counters as they were, and the scan for a victim
does not stop at the first list with bytes. `Meets` excludes an update that changes the size of an
item of the top list and a scan while several lists hold items. `Represents` is the invariant of the
lists, the lookup map and the counters, and `represents_of_runs` says that every run under `Meets`
keeps it, without a failed assertion and with the victim `leastRecentlyUsed`.
-/

set_option autoImplicit false

namespace Covered.Cache.Slru

open Common Lib Lib.Checked Lib.Execution

/-! ## The policy -/

/-- Number of LRU lists. -/
def nSeg : Nat := 4

/-- A cached object, with the list that it is in. -/
structure SlruItem where
  key : Key
  value : Value
  lruId : Nat
deriving DecidableEq

/-- The bytes of the object and of the list number. -/
def SlruItem.getSizeForCapacity (item : SlruItem) : Nat := objectSize item.key item.value + 4

/-- Where an item is: its list and its iterator in the list. -/
structure SlruKeyLookupIter where
  lruId : Nat
  lruListIter : Nat
deriving DecidableEq

/-- The bytes of an iterator; those of the list number are not counted. -/
def SlruKeyLookupIter.getSizeForCapacity (_ : SlruKeyLookupIter) : Nat := 8

/-- The lists with their byte counters, the lookup map and the total size. -/
structure SlruCachePolicy where
  lruMaxNBytes : Nat
  lruLists : Nat → LinkedList SlruItem := fun _ => .empty
  lruNBytes : Nat → Nat := fun _ => 0
  keyLookup : UnorderedMap Key SlruKeyLookupIter := ∅
  size : Nat := 0

def create (capacityBytes : Nat) : SlruCachePolicy where
  lruMaxNBytes := capacityBytes / nSeg

namespace SlruCachePolicy

def decreaseTotalSize (s : SlruCachePolicy) (decreaseBytes : Nat) : SlruCachePolicy :=
  { s with size := if s.size ≤ decreaseBytes then 0 else s.size - decreaseBytes }

def increaseTotalSize (s : SlruCachePolicy) (increaseBytes : Nat) : SlruCachePolicy :=
  { s with size := (s.size + increaseBytes) % uint64Limit }

def decreaseLruAndTotalSize (s : SlruCachePolicy) (decreaseBytes lruId : Nat) :
    Option SlruCachePolicy := do
  require (lruId < nSeg)
  let bytes := if s.lruNBytes lruId ≤ decreaseBytes then 0 else s.lruNBytes lruId - decreaseBytes
  return ({ s with lruNBytes := Function.update s.lruNBytes lruId bytes }).decreaseTotalSize
    decreaseBytes

def increaseLruAndTotalSize (s : SlruCachePolicy) (increaseBytes lruId : Nat) :
    Option SlruCachePolicy := do
  require (lruId < nSeg)
  let bytes := (s.lruNBytes lruId + increaseBytes) % uint64Limit
  return ({ s with lruNBytes := Function.update s.lruNBytes lruId bytes }).increaseTotalSize
    increaseBytes

/-- The item at an iterator of a list erased from the list. -/
def eraseItem (s : SlruCachePolicy) (lruId lruListIter : Nat) : SlruCachePolicy :=
  { s with lruLists := Function.update s.lruLists lruId ((s.lruLists lruId).erase lruListIter) }

/-- The item at the head of its list, with a lookup entry that denotes it. -/
def pushFrontItem (s : SlruCachePolicy) (item : SlruItem) : SlruCachePolicy :=
  { s with
    lruLists := Function.update s.lruLists item.lruId ((s.lruLists item.lruId).pushFront item)
    keyLookup := s.keyLookup.insert item.key ⟨item.lruId, (s.lruLists item.lruId).next⟩ }

/-- An item taken out of a list and put, possibly with another value, at the head of another. -/
def moveItem (s : SlruCachePolicy) (lruListIter : Nat) (old item : SlruItem) :
    Option SlruCachePolicy := do
  let s1 ← s.decreaseLruAndTotalSize old.getSizeForCapacity old.lruId
  let s2 ← (s1.eraseItem old.lruId lruListIter).increaseLruAndTotalSize item.getSizeForCapacity
    item.lruId
  return s2.pushFrontItem item

/-- The list holds more bytes than its share. -/
def isFull (s : SlruCachePolicy) (lruId : Nat) : Bool :=
  decide (s.lruNBytes lruId > s.lruMaxNBytes)

/-- The tail of a list becomes the head of the next lower one, which is cooled while it is full. The
lowest list is never cooled. Every pass takes an item out of the lower list, so its length bounds
the number of passes. -/
def cool : Nat → SlruCachePolicy → Option SlruCachePolicy
  | 0, _ => none
  | lruId + 1, s => do
      require (lruId + 1 < nSeg)
      let (lruListIter, tail) ← (s.lruLists (lruId + 1)).back
      require (tail.lruId = lruId + 1)
      require ((s.keyLookup.lookup tail.key).isSome = true)
      let s' ← s.moveItem lruListIter tail ⟨tail.key, tail.value, lruId⟩
      whileLoop (fun s => decide (lruId > 0) && s.isFull lruId) (cool lruId)
        (s'.lruLists lruId).toList.length s'

/-- The access of a get (without a new value) or of an update. Returns the old value of a cached
key. -/
def access (s : SlruCachePolicy) (key : Key) (newValue : Option Value) :
    Option (SlruCachePolicy × Option Value) :=
  match s.keyLookup.lookup key with
  | none => some (s, none)
  | some entry => do
      require (entry.lruId < nSeg)
      let item ← (s.lruLists entry.lruId).get entry.lruListIter
      require (item.key = key)
      require (item.lruId = entry.lruId)
      let value := newValue.getD item.value
      if entry.lruId = nSeg - 1 then
        -- the counters are not updated, although the value may have another size
        let s' := s.eraseItem entry.lruId entry.lruListIter
        return (s'.pushFrontItem ⟨key, value, entry.lruId⟩, some item.value)
      else
        let s' ← s.moveItem entry.lruListIter item ⟨key, value, entry.lruId + 1⟩
        let s'' ← whileLoop (fun s => s.isFull (entry.lruId + 1)) (cool (entry.lruId + 1))
          (s'.lruLists (entry.lruId + 1)).toList.length s'
        return (s'', some item.value)

def get (s : SlruCachePolicy) (key : Key) : Option (SlruCachePolicy × Option Value) :=
  s.access key none

def update (s : SlruCachePolicy) (key : Key) (value : Value) : Option (SlruCachePolicy × Bool) :=
  (s.access key (some value)).map fun r => (r.1, r.2.isSome)

/-- The lowest list with room for an item, or the lowest list if no list has room. -/
def admissionSegment (s : SlruCachePolicy) (incomingBytes : Nat) : Nat :=
  ((List.range nSeg).find? fun i =>
    decide ((s.lruNBytes i + incomingBytes) % uint64Limit ≤ s.lruMaxNBytes)).getD 0

/-- Admit a key. A key that is already cached only causes a warning. -/
def admitObject (s : SlruCachePolicy) (key : Key) (value : Value) : Option SlruCachePolicy :=
  match s.keyLookup.lookup key with
  | some _ => some s
  | none => do
      let nthSeg := s.admissionSegment (SlruItem.mk key value 0).getSizeForCapacity
      let item : SlruItem := ⟨key, value, nthSeg⟩
      let s' ← s.increaseLruAndTotalSize item.getSizeForCapacity nthSeg
      let entry : SlruKeyLookupIter := ⟨nthSeg, (s'.lruLists nthSeg).next⟩
      return (s'.pushFrontItem item).increaseTotalSize
        (key.getKeyLength + entry.getSizeForCapacity)

/-- The tail of a list with bytes; later lists override earlier ones. -/
def getVictimKey (s : SlruCachePolicy) : Option (Option Key) :=
  (List.range nSeg).foldlM (fun victim i =>
    if s.lruNBytes i > 0 then
      ((s.lruLists i).back).map fun tail => some tail.2.key
    else some victim) none

def evictWithGivenKey (s : SlruCachePolicy) (key : Key) :
    Option (SlruCachePolicy × Option Value) :=
  match s.keyLookup.lookup key with
  | none => some (s, none)
  | some entry => do
      let item ← (s.lruLists entry.lruId).get entry.lruListIter
      require (entry.lruId = item.lruId)
      let s1 ← s.decreaseLruAndTotalSize item.getSizeForCapacity entry.lruId
      let s2 := (s1.eraseItem entry.lruId entry.lruListIter).decreaseTotalSize
        (key.getKeyLength + entry.getSizeForCapacity)
      return ({ s2 with keyLookup := s2.keyLookup.erase key }, some item.value)

end SlruCachePolicy

open SlruCachePolicy

/-- The operations of the policy. -/
inductive Action
  | get (key : Key)
  | update (key : Key) (value : Value)
  | admitObject (key : Key) (value : Value)
  | getVictimKey
  | evictWithGivenKey (key : Key)

/-- What an operation returns. -/
inductive Output
  | value (value : Option Value)
  | flag (isCached : Bool)
  | victim (key : Option Key)
  | void
deriving DecidableEq

/-- One operation; `none` is a failed assertion, an invalid iterator or the tail of an empty
list. -/
def step (s : SlruCachePolicy) : Action → Option (SlruCachePolicy × Output)
  | .get key => (s.get key).map fun r => (r.1, .value r.2)
  | .update key value => (s.update key value).map fun r => (r.1, .flag r.2)
  | .admitObject key value => (s.admitObject key value).map fun s' => (s', .void)
  | .getVictimKey => s.getVictimKey.map fun key => (s, .victim key)
  | .evictWithGivenKey key => (s.evictWithGivenKey key).map fun r => (r.1, .value r.2)

/-! ## What the policy is for -/

namespace SlruCachePolicy

/-- The item of a key. -/
def resident (s : SlruCachePolicy) (key : Key) : Option SlruItem :=
  (s.keyLookup.lookup key).bind fun entry => (s.lruLists entry.lruId).get entry.lruListIter

/-- Bytes of the items of a list. -/
def listBytes (s : SlruCachePolicy) (lruId : Nat) : Nat :=
  ((s.lruLists lruId).toList.map SlruItem.getSizeForCapacity).sum

/-- Bytes of the lookup map. -/
def lookupBytes (s : SlruCachePolicy) : Nat :=
  s.keyLookup.sumBy fun key entry => key.getKeyLength + entry.getSizeForCapacity

/-- The tail of the lowest list that holds an item. -/
def leastRecentlyUsed (s : SlruCachePolicy) : Option Key :=
  ((List.range nSeg).findSome? fun i => (s.lruLists i).toList.getLast?).map SlruItem.key

end SlruCachePolicy

/-- The lists, the lookup map and the counters agree: a lookup entry denotes the one item of its
key, every item knows its list, and the counters are the sums of the sizes. -/
structure Represents (s : SlruCachePolicy) : Prop where
  denotes : ∀ key lruId lruListIter, s.keyLookup.lookup key = some ⟨lruId, lruListIter⟩ ↔
    ∃ item, (s.lruLists lruId).get lruListIter = some item ∧ item.key = key
  inList : ∀ lruId lruListIter item, (s.lruLists lruId).get lruListIter = some item →
    item.lruId = lruId ∧ lruId < nSeg
  lruNBytes : ∀ lruId, s.lruNBytes lruId = s.listBytes lruId
  size : s.size = ∑ lruId ∈ Finset.range nSeg, s.listBytes lruId + s.lookupBytes

/-- The operations that the policy handles: an update keeps the size of an item of the top list, a
victim is asked for while at most one list holds items, and the total size fits into 64 bits. -/
def Meets (s : SlruCachePolicy) : Action → Prop
  | .get _ => True
  | .update key value => ∀ item ∈ s.resident key,
      (item.lruId = nSeg - 1 → objectSize key value = objectSize key item.value) ∧
        s.size + objectSize key value < uint64Limit + objectSize key item.value
  | .admitObject key value => s.resident key = none →
      s.size + (objectSize key value + 4) + (key.getKeyLength + 8) < uint64Limit
  | .getVictimKey => ∀ i < nSeg, ∀ j < nSeg,
      (s.lruLists i).toList ≠ [] → (s.lruLists j).toList ≠ [] → i = j
  | .evictWithGivenKey _ => True

instance (s : SlruCachePolicy) : (a : Action) → Decidable (Meets s a)
  | .get _ => inferInstanceAs (Decidable True)
  | .update key value => inferInstanceAs (Decidable (∀ item ∈ s.resident key,
      (item.lruId = nSeg - 1 → objectSize key value = objectSize key item.value) ∧
        s.size + objectSize key value < uint64Limit + objectSize key item.value))
  | .admitObject key value => inferInstanceAs (Decidable (s.resident key = none →
      s.size + (objectSize key value + 4) + (key.getKeyLength + 8) < uint64Limit))
  | .getVictimKey => inferInstanceAs (Decidable (∀ i < nSeg, ∀ j < nSeg,
      (s.lruLists i).toList ≠ [] → (s.lruLists j).toList ≠ [] → i = j))
  | .evictWithGivenKey _ => inferInstanceAs (Decidable True)

end Covered.Cache.Slru
