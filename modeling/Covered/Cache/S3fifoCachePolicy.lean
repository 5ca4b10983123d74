import Mathlib.Data.Rat.Cast.Order
import Covered.Cache.CacheWrapper
import Covered.Lib.Execution
import Covered.Lib.PlaceTable

/-!
# The S3-FIFO policy

A small and a main queue of objects and a ghost queue of keys. A new object enters the small queue,
or the main queue if its key is a ghost. The oldest object of the small queue moves to the main
queue if it was hit twice, else its key becomes a ghost; the oldest object of the main queue is
inserted again with a smaller frequency until one with frequency `0` is found. The ghost queue is
cut down to the length of the main queue.

Each queue has a lookup table and a byte counter; the three are a `S3fifoQueue`. The counters are
exact numbers. `evictFromGhost_` erases the oldest ghost from its list and then reads the length of
the key from the erased element, whose memory is free. What the read gives is the parameter
`FreedLength`; `none` is a crash.
-/

set_option autoImplicit false

namespace Covered.Cache.S3fifo

open Common Lib Lib.Checked Lib.Execution

/-! ## Items -/

/-- A cached object with its frequency, which is at most `3`. -/
structure S3fifoItem where
  key : Key
  value : Value
  freq : Nat := 0
deriving DecidableEq

namespace S3fifoItem

def incrFreq (item : S3fifoItem) : S3fifoItem :=
  if item.freq < 3 then { item with freq := item.freq + 1 } else item

def decrFreq (item : S3fifoItem) : Option S3fifoItem := do
  require (item.freq > 0)
  return { item with freq := item.freq - 1 }

/-- The frequency counts as a quarter of a byte. -/
def getSizeForCapacity (item : S3fifoItem) : ℚ :=
  item.key.getKeyLength + item.value.valuesize + 1 / 4

end S3fifoItem

/-- The bytes of a key in the ghost queue. -/
def ghostBytes (key : Key) : ℚ := key.getKeyLength

/-- The bytes of a key and an iterator in a lookup table. -/
def entryBytes (key : Key) : ℚ := key.getKeyLength + 8

/-! ## Queues -/

/-- A queue, the lookup table of its elements and its byte counter. -/
structure S3fifoQueue (α : Type) where
  queue : LinkedList α := .empty
  keyLookup : UnorderedMap Key Nat := ∅
  size : ℚ := 0

namespace S3fifoQueue

variable {α : Type} (keyOf : α → Key) (bytes : α → ℚ)

/-- A new element at the head. An entry that is already in the table stays. -/
def insertFront (q : S3fifoQueue α) (a : α) : S3fifoQueue α where
  queue := q.queue.pushFront a
  keyLookup := UnorderedMap.insertNew q.keyLookup (keyOf a) q.queue.next
  size := q.size + bytes a + entryBytes (keyOf a)

/-- The element at an iterator erased with its entry. -/
def eraseAt (q : S3fifoQueue α) (it : Nat) (a : α) : S3fifoQueue α where
  queue := q.queue.erase it
  keyLookup := q.keyLookup.erase (keyOf a)
  size := q.size - entryBytes (keyOf a) - bytes a

/-- The element at an iterator moved, changed, to the head. -/
def moveToFront (q : S3fifoQueue α) (it : Nat) (a : α) : S3fifoQueue α :=
  { q with
    queue := (q.queue.erase it).pushFront a
    keyLookup := q.keyLookup.insert (keyOf a) q.queue.next }

/-- A counter below zero is set to zero. -/
def fixSize (q : S3fifoQueue α) : S3fifoQueue α :=
  { q with size := if q.size < 0 then 0 else q.size }

/-- The element of a key. -/
def find (q : S3fifoQueue α) (key : Key) : Option α :=
  (q.keyLookup.lookup key).bind q.queue.get

end S3fifoQueue

/-- A queue of objects. -/
abbrev ItemQueue := S3fifoQueue S3fifoItem

/-! ## The policy -/

structure S3fifoCachePolicy where
  capacityBytes : Nat
  small : ItemQueue := {}
  main : ItemQueue := {}
  ghost : S3fifoQueue Key := {}

/-- What a read of the key length of the ghost that was just erased gives; it may depend on the
state before the ghost is dropped. -/
abbrev FreedLength := S3fifoCachePolicy → Option Nat

def create (capacityBytes : Nat) : S3fifoCachePolicy where
  capacityBytes := capacityBytes

/-- The victims of an eviction. -/
abbrev Victims := UnorderedMap Key Value

namespace S3fifoCachePolicy

/-- The objects of the queue named. -/
def queueOf (s : S3fifoCachePolicy) (isSmallCache : Bool) : ItemQueue :=
  if isSmallCache = true then s.small else s.main

def setQueue (s : S3fifoCachePolicy) (isSmallCache : Bool) (q : ItemQueue) : S3fifoCachePolicy :=
  if isSmallCache = true then { s with small := q } else { s with main := q }

/-- `exists_`: the queue that holds a key, and the iterator of its object. -/
def exists? (s : S3fifoCachePolicy) (key : Key) : Option (Bool × Nat) :=
  match s.small.keyLookup.lookup key with
  | some it => some (true, it)
  | none => (s.main.keyLookup.lookup key).map fun it => (false, it)

def tryToFixDoublePrecisionIssue (s : S3fifoCachePolicy) : S3fifoCachePolicy :=
  { s with small := s.small.fixSize, main := s.main.fixSize, ghost := s.ghost.fixSize }

def insertIntoSmall (s : S3fifoCachePolicy) (item : S3fifoItem) : S3fifoCachePolicy :=
  { s with
    small := s.small.insertFront S3fifoItem.key S3fifoItem.getSizeForCapacity item }

def insertIntoMain (s : S3fifoCachePolicy) (item : S3fifoItem) : S3fifoCachePolicy :=
  { s with
    main := s.main.insertFront S3fifoItem.key S3fifoItem.getSizeForCapacity item }

def removeFromGhost (s : S3fifoCachePolicy) (key : Key) : Option S3fifoCachePolicy :=
  match s.ghost.keyLookup.lookup key with
  | none => some s.tryToFixDoublePrecisionIssue
  | some it => do
      let ghost ← s.ghost.queue.get it
      require (ghost = key)
      return ({ s with ghost := s.ghost.eraseAt id ghostBytes it key }).tryToFixDoublePrecisionIssue

/-- The oldest ghost is dropped. The length of its key is read after it was erased. -/
def evictFromGhost (freedLength : FreedLength) (s : S3fifoCachePolicy) :
    Option S3fifoCachePolicy := do
  let (it, ghost) ← s.ghost.queue.back
  require ((s.ghost.keyLookup.lookup ghost).isSome = true)
  let freed ← freedLength s
  return ({ s with ghost :=
    { queue := s.ghost.queue.erase it
      keyLookup := s.ghost.keyLookup.erase ghost
      size := s.ghost.size - entryBytes ghost - freed } }).tryToFixDoublePrecisionIssue

/-- The ghost queue is longer than the main queue. -/
def ghostTooLong (s : S3fifoCachePolicy) : Bool :=
  decide (s.ghost.queue.toList.length > s.main.queue.toList.length)

def checkGhostCacheSize (freedLength : FreedLength) (s : S3fifoCachePolicy) :
    Option S3fifoCachePolicy :=
  whileLoop ghostTooLong (evictFromGhost freedLength) s.ghost.queue.toList.length s

def insertIntoGhost (freedLength : FreedLength) (s : S3fifoCachePolicy) (victimKey : Key) :
    Option S3fifoCachePolicy := do
  require (s.ghost.keyLookup.lookup victimKey = none)
  ({ s with ghost := s.ghost.insertFront id ghostBytes victimKey }).checkGhostCacheSize freedLength

/-! ### Accesses -/

/-- The access of a get (without a new value) or of an update. Returns the old value of a cached
key. -/
def access (s : S3fifoCachePolicy) (key : Key) (newValue : Option Value) :
    Option (S3fifoCachePolicy × Option Value) :=
  match s.exists? key with
  | none => some (s, none)
  | some (isSmallCache, it) => do
      let q := s.queueOf isSmallCache
      let item ← q.queue.get it
      require (item.key = key)
      let value := newValue.getD item.value
      let q' : ItemQueue := { q with
        queue := q.queue.set it { item.incrFreq with value := value }
        size := q.size - item.value.valuesize + value.valuesize }
      let s' ← (s.setQueue isSmallCache q').removeFromGhost key
      return (s'.tryToFixDoublePrecisionIssue, some item.value)

def get (s : S3fifoCachePolicy) (key : Key) : Option (S3fifoCachePolicy × Option Value) :=
  s.access key none

def update (s : S3fifoCachePolicy) (key : Key) (value : Value) :
    Option (S3fifoCachePolicy × Bool) :=
  (s.access key (some value)).map fun r => (r.1, r.2.isSome)

/-- An object that is not larger than the share of the small queue. -/
def canAdmit (s : S3fifoCachePolicy) (objsize : Nat) : Bool :=
  decide ((objsize : ℚ) ≤ 1 / 10 * s.capacityBytes)

/-- Admit a key. A key that is already cached only causes a warning. -/
def admitObject (s : S3fifoCachePolicy) (key : Key) (value : Value) :
    Option S3fifoCachePolicy :=
  match s.exists? key with
  | some _ => some s
  | none =>
      let item : S3fifoItem := { key := key, value := value }
      if (s.ghost.keyLookup.lookup key).isSome = true then
        (s.insertIntoMain item).removeFromGhost key
      else (s.insertIntoSmall item).removeFromGhost key

/-! ### Eviction -/

/-- The state of a loop that evicts objects. -/
structure Eviction where
  cache : S3fifoCachePolicy
  victims : Victims
  hasEvicted : Bool

/-- FIFO reinsertion: an object of the main queue moves to the head with a smaller frequency. -/
def reinsert (s : S3fifoCachePolicy) (it : Nat) (item : S3fifoItem) : Option S3fifoCachePolicy := do
  let item' ← item.decrFreq
  require ((s.main.keyLookup.lookup item.key).isSome = true)
  return { s with main := s.main.moveToFront S3fifoItem.key it item' }

/-- The oldest object of the main queue is inserted again or evicted. -/
def mainPass (e : Eviction) : Option Eviction :=
  match e.cache.main.queue.back with
  | none => none
  | some (it, item) =>
      if item.freq > 0 then (e.cache.reinsert it item).map fun s => { e with cache := s }
      else some {
        cache := { e.cache with
          main := e.cache.main.eraseAt S3fifoItem.key S3fifoItem.getSizeForCapacity it item }
        victims := UnorderedMap.insertNew e.victims item.key item.value
        hasEvicted := true }

/-- Passes that the main queue needs at most. -/
def mainFuel (s : S3fifoCachePolicy) : Nat :=
  (s.main.queue.toList.map S3fifoItem.freq).sum + s.main.queue.toList.length

def evictFromMain (freedLength : FreedLength) (s : S3fifoCachePolicy) (victims : Victims) :
    Option (S3fifoCachePolicy × Victims) := do
  let e ← whileLoop
    (fun e => !e.hasEvicted && decide (e.cache.main.queue.toList.length > 0)) mainPass s.mainFuel
    { cache := s, victims := victims, hasEvicted := false }
  let s' ← e.cache.checkGhostCacheSize freedLength
  return (s'.tryToFixDoublePrecisionIssue, e.victims)

/-- An object of the small queue that was hit twice enters the main queue, which evicts if it is
full. The object is still in the small queue. -/
def moveToMain (freedLength : FreedLength) (e : Eviction) (item : S3fifoItem) :
    Option Eviction :=
  let s := e.cache.insertIntoMain item
  if s.main.size ≥ 9 / 10 * s.capacityBytes then
    (s.evictFromMain freedLength e.victims).map fun r =>
      { cache := r.1, victims := r.2, hasEvicted := e.hasEvicted }
  else some { e with cache := s }

/-- The key of an object of the small queue becomes a ghost. The object is still in the small
queue. -/
def moveToGhost (freedLength : FreedLength) (e : Eviction) (item : S3fifoItem) :
    Option Eviction :=
  (e.cache.insertIntoGhost freedLength item.key).map fun s =>
    { cache := s
      victims := UnorderedMap.insertNew e.victims item.key item.value
      hasEvicted := true }

/-- The oldest object of the small queue leaves it. -/
def smallPass (freedLength : FreedLength) (e : Eviction) : Option Eviction := do
  let (it, item) ← e.cache.small.queue.back
  let e' ← (if item.freq > 1 then moveToMain freedLength e item
    else moveToGhost freedLength e item)
  return { e' with cache := { e'.cache with
    small := e'.cache.small.eraseAt S3fifoItem.key S3fifoItem.getSizeForCapacity it item } }

def evictFromSmall (freedLength : FreedLength) (s : S3fifoCachePolicy) (victims : Victims) :
    Option (S3fifoCachePolicy × Victims) := do
  let e ← whileLoop
    (fun e => !e.hasEvicted && decide (e.cache.small.queue.toList.length > 0))
    (smallPass freedLength) s.small.queue.toList.length
    { cache := s, victims := victims, hasEvicted := false }
  return (e.cache.tryToFixDoublePrecisionIssue, e.victims)

def evictNoGivenKey (freedLength : FreedLength) (s : S3fifoCachePolicy) (victims : Victims) :
    Option (S3fifoCachePolicy × Victims) :=
  if s.small.size ≥ 1 / 10 * s.capacityBytes then s.evictFromSmall freedLength victims
  else s.evictFromMain freedLength victims

/-- The bytes of the three queues; fractions of a byte are dropped. -/
def getSizeForCapacity (s : S3fifoCachePolicy) : Nat :=
  (s.small.size + s.main.size + s.ghost.size).floor.toNat

end S3fifoCachePolicy

open S3fifoCachePolicy

/-- The operations of the policy. -/
inductive Action
  | get (key : Key)
  | update (key : Key) (value : Value)
  | admitObject (key : Key) (value : Value)
  | evictNoGivenKey
deriving DecidableEq

/-- What an operation returns. -/
inductive Output
  | value (value : Option Value)
  | flag (isCached : Bool)
  | victims (victims : Victims)
  | void

/-- One operation; `none` is a failed assertion, an invalid iterator or a loop that does not end. -/
def step (freedLength : FreedLength) (s : S3fifoCachePolicy) :
    Action → Option (S3fifoCachePolicy × Output)
  | .get key => (s.get key).map fun r => (r.1, .value r.2)
  | .update key value => (s.update key value).map fun r => (r.1, .flag r.2)
  | .admitObject key value => (s.admitObject key value).map fun s' => (s', .void)
  | .evictNoGivenKey => (s.evictNoGivenKey freedLength ∅).map fun r => (r.1, .victims r.2)

/-! ## What the policy is for -/

/-- The bytes of a lookup table. -/
def tableBytes (table : UnorderedMap Key Nat) : Nat :=
  table.sumBy fun key _ => key.getKeyLength + 8

/-- The lookup table has the place of every element, and the counter is the sum of the sizes. -/
structure Wf {α : Type} (keyOf : α → Key) (bytes : α → ℚ) (q : S3fifoQueue α) : Prop where
  indexes : Indexes keyOf q.keyLookup q.queue.get
  size : q.size = (q.queue.toList.map bytes).sum + tableBytes q.keyLookup

/-- The value of a key in a queue. -/
def valueIn (q : ItemQueue) (key : Key) : Option Value := (q.find key).map S3fifoItem.value

/-- The value of a cached key. -/
def S3fifoCachePolicy.cached (s : S3fifoCachePolicy) (key : Key) : Option Value :=
  (valueIn s.small key).or (valueIn s.main key)

/-- The queues match their tables and counters, no key is in the queues twice, and the ghost queue
is not longer than the main queue. -/
structure Represents (s : S3fifoCachePolicy) : Prop where
  small : Wf S3fifoItem.key S3fifoItem.getSizeForCapacity s.small
  main : Wf S3fifoItem.key S3fifoItem.getSizeForCapacity s.main
  ghost : Wf id ghostBytes s.ghost
  keys : (s.small.queue.toList.map S3fifoItem.key ++ s.main.queue.toList.map S3fifoItem.key ++
    s.ghost.queue.toList).Nodup
  ghostLength : s.ghost.queue.toList.length ≤ s.main.queue.toList.length

/-- What should hold in every reached state: the representation, no abort of the next operation, and
an eviction reports exactly the objects that it takes out of the cache. -/
structure Correct (freedLength : FreedLength) (s : S3fifoCachePolicy) : Prop where
  represents : Represents s
  total : ∀ a, (step freedLength s a).isSome = true
  victims : ∃ s' victims, s.evictNoGivenKey freedLength ∅ = some (s', victims) ∧
    ∀ key value, victims.lookup key = some value ↔
      s.cached key = some value ∧ s'.cached key = none

/-- The memory of an erased ghost still holds the length of its key when it is read. -/
def ReadsBack (freedLength : FreedLength) : Prop :=
  ∀ (s : S3fifoCachePolicy) it key, s.ghostTooLong = true →
    s.ghost.queue.back = some (it, key) → freedLength s = some key.getKeyLength

end Covered.Cache.S3fifo
