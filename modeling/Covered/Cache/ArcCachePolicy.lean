import Mathlib.Data.Finset.Option
import Mathlib.Data.Rat.Cast.Order
import Covered.Cache.CacheWrapper
import Covered.Lib.Execution
import Covered.Lib.PlaceTable

/-!
# The ARC policy

Two LRU lists of objects (1: hit once, 2: hit again) and, for each, a list of ghosts: keys of
objects that it has lost. One lookup map finds the keys of all four lists. A hit on a ghost moves
the bound `p` on the bytes of the first list and forgets the ghost, and the object that is then
admitted goes to the second list. The local cache asks for a victim with `getVictimKey` and evicts
that key with `evictWithGivenKey`, which turns the object into a ghost and may drop the oldest ghost
of the list.

The lists and their counters are functions of the number of the LRU list. `clamped` is not in the
source: it records that a subtraction from a counter was cut off at zero. The constructor does not
initialise `incoming_objsize_`; the number that it then holds is a parameter of `create`. The bound
`p` is exact.
-/

set_option autoImplicit false

namespace Covered.Cache.Arc

open Common Lib Lib.Checked Lib.Execution

/-! ## Items -/

/-- The key of an object that list `lruId` has lost. -/
structure ArcGhostItem where
  key : Key
  lruId : Nat
deriving DecidableEq

/-- The bytes of the key, the number of the list and the ghost flag. -/
def ArcGhostItem.getSizeForCapacity (item : ArcGhostItem) : Nat := item.key.getKeyLength + 4 + 1

/-- An object of list `lruId`. -/
structure ArcDataItem where
  key : Key
  value : Value
  lruId : Nat
deriving DecidableEq

def ArcDataItem.getSizeForCapacity (item : ArcDataItem) : Nat :=
  item.key.getKeyLength + 4 + 1 + item.value.valuesize

/-- Where a key is: the list, whether it is the list of ghosts, and the iterator. -/
structure ArcKeyLookupIter where
  lruId : Nat
  isGhost : Bool
  listIter : Nat
deriving DecidableEq

/-- The bytes of one iterator; the rest of an entry is not counted. -/
def ArcKeyLookupIter.getSizeForCapacity (_ : ArcKeyLookupIter) : Nat := 8

/-! ## The policy -/

/-- The lists of objects and of ghosts with their byte counters, the bound `p`, what is known of the
last request, the lookup map and the total size. -/
structure ArcCachePolicy where
  capacityBytes : Nat
  dataSize : Nat → Nat := fun _ => 0
  ghostSize : Nat → Nat := fun _ => 0
  dataList : Nat → LinkedList ArcDataItem := fun _ => .empty
  ghostList : Nat → LinkedList ArcGhostItem := fun _ => .empty
  p : ℚ := 0
  currObjInGhost : Nat → Bool := fun _ => false
  vtimeLastReqInGhost : Int := -1
  reqseq : Int := 0
  incomingObjsize : Nat
  keyLookup : UnorderedMap Key ArcKeyLookupIter := ∅
  size : Nat := 0
  clamped : Bool := false

namespace ArcCachePolicy

def decreaseTotalSize (s : ArcCachePolicy) (decreaseBytes : Nat) : ArcCachePolicy :=
  { s with
    size := if s.size ≤ decreaseBytes then 0 else s.size - decreaseBytes
    clamped := s.clamped || decide (s.size < decreaseBytes) }

def increaseTotalSize (s : ArcCachePolicy) (increaseBytes : Nat) : ArcCachePolicy :=
  { s with size := (s.size + increaseBytes) % uint64Limit }

def decreaseGhostAndTotalSize (s : ArcCachePolicy) (decreaseBytes lruId : Nat) :
    Option ArcCachePolicy := do
  require (lruId = 1 ∨ lruId = 2)
  let bytes :=
    if s.ghostSize lruId ≤ decreaseBytes then 0 else s.ghostSize lruId - decreaseBytes
  return ({ s with
    ghostSize := Function.update s.ghostSize lruId bytes
    clamped := s.clamped || decide (s.ghostSize lruId < decreaseBytes) }).decreaseTotalSize
      decreaseBytes

def increaseGhostAndTotalSize (s : ArcCachePolicy) (increaseBytes lruId : Nat) :
    Option ArcCachePolicy := do
  require (lruId = 1 ∨ lruId = 2)
  let bytes := (s.ghostSize lruId + increaseBytes) % uint64Limit
  return ({ s with ghostSize := Function.update s.ghostSize lruId bytes }).increaseTotalSize
    increaseBytes

def decreaseDataAndTotalSize (s : ArcCachePolicy) (decreaseBytes lruId : Nat) :
    Option ArcCachePolicy := do
  require (lruId = 1 ∨ lruId = 2)
  let bytes := if s.dataSize lruId ≤ decreaseBytes then 0 else s.dataSize lruId - decreaseBytes
  return ({ s with
    dataSize := Function.update s.dataSize lruId bytes
    clamped := s.clamped || decide (s.dataSize lruId < decreaseBytes) }).decreaseTotalSize
      decreaseBytes

def increaseDataAndTotalSize (s : ArcCachePolicy) (increaseBytes lruId : Nat) :
    Option ArcCachePolicy := do
  require (lruId = 1 ∨ lruId = 2)
  let bytes := (s.dataSize lruId + increaseBytes) % uint64Limit
  return ({ s with dataSize := Function.update s.dataSize lruId bytes }).increaseTotalSize
    increaseBytes

/-- An object erased from its list. -/
def eraseData (s : ArcCachePolicy) (lruId listIter : Nat) : ArcCachePolicy :=
  { s with dataList := Function.update s.dataList lruId ((s.dataList lruId).erase listIter) }

/-- A ghost erased from its list. -/
def eraseGhost (s : ArcCachePolicy) (lruId listIter : Nat) : ArcCachePolicy :=
  { s with ghostList := Function.update s.ghostList lruId ((s.ghostList lruId).erase listIter) }

/-- An object at the head of its list, with a lookup entry that denotes it. -/
def pushFrontData (s : ArcCachePolicy) (item : ArcDataItem) : ArcCachePolicy :=
  { s with
    dataList := Function.update s.dataList item.lruId ((s.dataList item.lruId).pushFront item)
    keyLookup := s.keyLookup.insert item.key
      ⟨item.lruId, false, (s.dataList item.lruId).next⟩ }

/-- A ghost at the head of its list, with a lookup entry that denotes it. -/
def pushFrontGhost (s : ArcCachePolicy) (item : ArcGhostItem) : ArcCachePolicy :=
  { s with
    ghostList := Function.update s.ghostList item.lruId ((s.ghostList item.lruId).pushFront item)
    keyLookup := s.keyLookup.insert item.key
      ⟨item.lruId, true, (s.ghostList item.lruId).next⟩ }

/-- The entry of a key erased from the lookup map. -/
def eraseKey (s : ArcCachePolicy) (key : Key) : ArcCachePolicy :=
  { s.decreaseTotalSize (key.getKeyLength + 8) with keyLookup := s.keyLookup.erase key }

/-! ### Accesses -/

/-- The bound on the first list after a hit on a ghost of list `lruId`. -/
def adaptedP (s : ArcCachePolicy) (lruId : Nat) : ℚ :=
  if lruId = 1 then
    min (s.p + max ((s.ghostSize 2 : ℚ) / s.ghostSize 1) 1) s.capacityBytes
  else
    max (s.p - max ((s.ghostSize 1 : ℚ) / s.ghostSize 2) 1) 0

/-- A hit on a ghost: the bound is adapted and the ghost is forgotten. -/
def ghostHit (s : ArcCachePolicy) (key : Key) (entry : ArcKeyLookupIter) :
    Option ArcCachePolicy := do
  require (entry.lruId = 1 ∨ entry.lruId = 2)
  let item ← (s.ghostList entry.lruId).get entry.listIter
  require (item.key = key)
  require (item.lruId = entry.lruId)
  require (s.ghostSize entry.lruId ≥ 1)
  let s1 ← ({ s with
    vtimeLastReqInGhost := s.reqseq
    currObjInGhost := Function.update s.currObjInGhost entry.lruId true
    p := s.adaptedP entry.lruId }).decreaseGhostAndTotalSize item.getSizeForCapacity entry.lruId
  return (s1.eraseGhost entry.lruId entry.listIter).eraseKey key

/-- A hit on an object: it moves, possibly with a new value, to the head of the second list. -/
def dataHit (s : ArcCachePolicy) (key : Key) (entry : ArcKeyLookupIter)
    (newValue : Option Value) : Option (ArcCachePolicy × Value) := do
  let item ← (s.dataList entry.lruId).get entry.listIter
  require (item.key = key)
  require (item.lruId = entry.lruId)
  let item' : ArcDataItem := ⟨key, newValue.getD item.value, 2⟩
  let s1 ← s.decreaseDataAndTotalSize item.getSizeForCapacity entry.lruId
  let s2 ← (s1.eraseData entry.lruId entry.listIter).increaseDataAndTotalSize
    item'.getSizeForCapacity 2
  return (s2.pushFrontData item', item.value)

/-- The access of a get (without a new value) or of an update. Returns the old value of a cached
key. -/
def access (s : ArcCachePolicy) (key : Key) (newValue : Option Value) :
    Option (ArcCachePolicy × Option Value) :=
  let s' := { s with reqseq := s.reqseq + 1 }
  match s.keyLookup.lookup key with
  | none => some (s', none)
  | some entry =>
      let s'' := { s' with currObjInGhost := fun _ => false }
      if entry.isGhost = true then (s''.ghostHit key entry).map fun t => (t, none)
      else (s''.dataHit key entry newValue).map fun r => (r.1, some r.2)

def get (s : ArcCachePolicy) (key : Key) : Option (ArcCachePolicy × Option Value) :=
  s.access key none

def update (s : ArcCachePolicy) (key : Key) (value : Value) : Option (ArcCachePolicy × Bool) :=
  (s.access key (some value)).map fun r => (r.1, r.2.isSome)

/-! ### Admission -/

/-- The last request hit a ghost and nothing was admitted since. -/
def lastReqInGhost (s : ArcCachePolicy) : Bool :=
  decide (s.vtimeLastReqInGhost = s.reqseq) && (s.currObjInGhost 1 || s.currObjInGhost 2)

/-- Admit a key. A key that is already cached only causes a warning; a ghost is not expected. -/
def admitObject (s : ArcCachePolicy) (key : Key) (value : Value) : Option ArcCachePolicy :=
  match s.keyLookup.lookup key with
  | some entry => do
      require (entry.isGhost = false)
      return s
  | none => do
      let item : ArcDataItem := ⟨key, value, if s.lastReqInGhost then 2 else 1⟩
      let s1 ← s.increaseDataAndTotalSize item.getSizeForCapacity item.lruId
      let s2 := if s.lastReqInGhost then
          { s1 with currObjInGhost := fun _ => false, vtimeLastReqInGhost := -1 }
        else s1
      let s3 := (s2.pushFrontData item).increaseTotalSize (key.getKeyLength + 8)
      return { s3 with incomingObjsize := objectSize key value }

/-! ### Eviction -/

/-- `_ARC_to_replace`: the tail of one of the two lists of objects. -/
def toReplace (s : ArcCachePolicy) : Option (Option Key) :=
  if s.dataSize 1 = 0 ∧ s.dataSize 2 = 0 then some none
  else do
    let cond1 := decide (s.dataSize 1 > 0)
    let cond2 := decide ((s.dataSize 1 : ℚ) > s.p)
    let cond3 := decide ((s.dataSize 1 : ℚ) = s.p) && s.currObjInGhost 2
    let cond4 := decide (s.dataSize 2 = 0)
    let lruId := if (cond1 && (cond2 || cond3)) || cond4 then 1 else 2
    let (_, item) ← (s.dataList lruId).back
    require ((s.keyLookup.lookup item.key).isSome = true)
    return some item.key

/-- The first list with its ghosts and the last admitted object exceed the capacity. -/
def firstListFull (s : ArcCachePolicy) : Bool :=
  decide ((s.dataSize 1 + s.ghostSize 1 + s.incomingObjsize) % uint64Limit > s.capacityBytes)

/-- `_ARC_to_evict_miss_on_all_queues`. -/
def toEvictMissOnAllQueues (s : ArcCachePolicy) : Option (Option Key) :=
  if s.firstListFull = true then
    if s.ghostSize 1 > 0 then s.toReplace
    else (s.dataList 1).back.map fun tail => some tail.2.key
  else s.toReplace

def getVictimKey (s : ArcCachePolicy) : Option (Option Key) :=
  if s.lastReqInGhost = true then s.toReplace else s.toEvictMissOnAllQueues

/-- `_ARC_evict_L1_data_no_ghost`: the object is forgotten. -/
def evictL1DataNoGhost (s : ArcCachePolicy) (entry : ArcKeyLookupIter) (key : Key) :
    Option (ArcCachePolicy × Value) := do
  require (entry.isGhost = false)
  let item ← (s.dataList 1).get entry.listIter
  require (item.key = key)
  require (item.lruId = 1)
  let s1 ← s.decreaseDataAndTotalSize item.getSizeForCapacity 1
  return ((s1.eraseData 1 entry.listIter).eraseKey key, item.value)

/-- The object becomes the newest ghost of its list. -/
def evictData (lruId : Nat) (s : ArcCachePolicy) (entry : ArcKeyLookupIter) (key : Key) :
    Option (ArcCachePolicy × Value) := do
  require (entry.isGhost = false)
  let item ← (s.dataList lruId).get entry.listIter
  require (item.key = key)
  require (item.lruId = lruId)
  let ghost : ArcGhostItem := ⟨key, lruId⟩
  let s1 ← s.decreaseDataAndTotalSize item.getSizeForCapacity lruId
  let s2 ← (s1.eraseData lruId entry.listIter).increaseGhostAndTotalSize ghost.getSizeForCapacity
    lruId
  return (s2.pushFrontGhost ghost, item.value)

def evictL1Data : ArcCachePolicy → ArcKeyLookupIter → Key → Option (ArcCachePolicy × Value) :=
  evictData 1

def evictL2Data : ArcCachePolicy → ArcKeyLookupIter → Key → Option (ArcCachePolicy × Value) :=
  evictData 2

/-- The oldest ghost of a list is forgotten. -/
def evictGhost (lruId : Nat) (s : ArcCachePolicy) : Option ArcCachePolicy := do
  let (listIter, item) ← (s.ghostList lruId).back
  require (item.lruId = lruId)
  let s1 ← s.decreaseGhostAndTotalSize item.getSizeForCapacity lruId
  let entry ← s1.keyLookup.lookup item.key
  require (entry.lruId = lruId)
  require (entry.isGhost = true)
  return (s1.eraseGhost lruId listIter).eraseKey item.key

def evictL1Ghost : ArcCachePolicy → Option ArcCachePolicy := evictGhost 1

def evictL2Ghost : ArcCachePolicy → Option ArcCachePolicy := evictGhost 2

/-- The four lists hold twice the capacity and the second list has ghosts. -/
def secondGhostListFull (s : ArcCachePolicy) : Bool :=
  decide ((s.dataSize 1 + s.ghostSize 1 + s.dataSize 2 + s.ghostSize 2) % uint64Limit ≥
    s.capacityBytes * 2 % uint64Limit) && decide (s.ghostSize 2 > 0)

/-- Evict an object from its list. -/
def evictObject (s : ArcCachePolicy) (entry : ArcKeyLookupIter) (key : Key) :
    Option (ArcCachePolicy × Value) :=
  if entry.lruId = 1 then
    if s.firstListFull = true then
      if s.ghostSize 1 > 0 then s.evictL1Ghost.bind fun t => t.evictL1Data entry key
      else s.evictL1DataNoGhost entry key
    else s.evictL1Data entry key
  else if entry.lruId = 2 then
    if s.secondGhostListFull = true then s.evictL2Ghost.bind fun t => t.evictL2Data entry key
    else s.evictL2Data entry key
  else none

/-- Evict a key. Returns the value of a cached key; a ghost is not expected. -/
def evictWithGivenKey (s : ArcCachePolicy) (key : Key) :
    Option (ArcCachePolicy × Option Value) :=
  match s.keyLookup.lookup key with
  | none => some (s, none)
  | some entry => do
      require (entry.isGhost = false)
      let (s', value) ← s.evictObject entry key
      return (s', some value)

end ArcCachePolicy

open ArcCachePolicy

/-! ## The use of the policy -/

/-- A policy with the keys accessed since they were last evicted and the victims that
`getVictimKey` returned and that were not evicted since. -/
structure Driven where
  cache : ArcCachePolicy
  accessed : Finset Key := ∅
  returned : Finset Key := ∅

/-- A new policy; `uninitialised` is what the constructor leaves in `incoming_objsize_`. -/
def create (capacityBytes uninitialised : Nat) : Driven where
  cache := { capacityBytes := capacityBytes, incomingObjsize := uninitialised }

/-- The operations of the policy. -/
inductive Action
  | get (key : Key)
  | update (key : Key) (value : Value)
  | admitObject (key : Key) (value : Value)
  | getVictimKey
  | evictWithGivenKey (key : Key)
deriving DecidableEq

/-- What an operation returns. -/
inductive Output
  | value (value : Option Value)
  | flag (isCached : Bool)
  | victim (key : Option Key)
  | void
deriving DecidableEq

/-- One operation; `none` is a failed assertion, an invalid iterator, the tail of an empty list or
an exit. -/
def step (d : Driven) : Action → Option (Driven × Output)
  | .get key => (d.cache.get key).map fun r =>
      ({ d with cache := r.1, accessed := insert key d.accessed }, .value r.2)
  | .update key value => (d.cache.update key value).map fun r =>
      ({ d with cache := r.1, accessed := insert key d.accessed }, .flag r.2)
  | .admitObject key value => (d.cache.admitObject key value).map fun s =>
      ({ d with cache := s }, .void)
  | .getVictimKey => d.cache.getVictimKey.map fun victim =>
      ({ d with returned := victim.toFinset ∪ d.returned }, .victim victim)
  | .evictWithGivenKey key => (d.cache.evictWithGivenKey key).map fun r =>
      ({ cache := r.1, accessed := d.accessed.erase key, returned := d.returned.erase key },
        .value r.2)

/-- The use that is promised: an admitted key was accessed since its last eviction and its object is
smaller than the cache, and an evicted key is a returned victim. -/
def Promised (d : Driven) : Action → Prop
  | .get _ => True
  | .update _ _ => True
  | .admitObject key value => key ∈ d.accessed ∧ objectSize key value < d.cache.capacityBytes
  | .getVictimKey => True
  | .evictWithGivenKey key => key ∈ d.returned

instance (d : Driven) : (a : Action) → Decidable (Promised d a)
  | .get _ => inferInstanceAs (Decidable True)
  | .update _ _ => inferInstanceAs (Decidable True)
  | .admitObject key value =>
      inferInstanceAs (Decidable (key ∈ d.accessed ∧ objectSize key value < d.cache.capacityBytes))
  | .getVictimKey => inferInstanceAs (Decidable True)
  | .evictWithGivenKey key => inferInstanceAs (Decidable (key ∈ d.returned))

/-! ## What the policy is for -/

namespace ArcCachePolicy

/-- The key at a place. -/
def keyAt (s : ArcCachePolicy) (entry : ArcKeyLookupIter) : Option Key :=
  if entry.isGhost = true then ((s.ghostList entry.lruId).get entry.listIter).map ArcGhostItem.key
  else ((s.dataList entry.lruId).get entry.listIter).map ArcDataItem.key

/-- The object of a key. -/
def resident (s : ArcCachePolicy) (key : Key) : Option ArcDataItem :=
  (s.keyLookup.lookup key).bind fun entry =>
    if entry.isGhost = true then none else (s.dataList entry.lruId).get entry.listIter

def dataBytes (s : ArcCachePolicy) (lruId : Nat) : Nat :=
  (s.dataList lruId).bytes ArcDataItem.getSizeForCapacity

def ghostBytes (s : ArcCachePolicy) (lruId : Nat) : Nat :=
  (s.ghostList lruId).bytes ArcGhostItem.getSizeForCapacity

/-- Bytes of the lookup map. -/
def lookupBytes (s : ArcCachePolicy) : Nat :=
  s.keyLookup.sumBy fun key entry => key.getKeyLength + entry.getSizeForCapacity

/-- One of the lists holds the object of the key. -/
def HoldsObject (s : ArcCachePolicy) (key : Key) : Prop :=
  ∃ lruId, ∃ item ∈ (s.dataList lruId).toList, item.key = key

end ArcCachePolicy

/-- The lists, the lookup map and the counters agree: a lookup entry denotes the one item of its
key, every item knows its list, the counters are the sums of the sizes, and no subtraction from them
was cut off. -/
structure Represents (s : ArcCachePolicy) : Prop where
  denotes : ∀ key entry, s.keyLookup.lookup key = some entry ↔ s.keyAt entry = some key
  inData : ∀ lruId listIter item, (s.dataList lruId).get listIter = some item →
    item.lruId = lruId ∧ (lruId = 1 ∨ lruId = 2)
  inGhost : ∀ lruId listIter item, (s.ghostList lruId).get listIter = some item →
    item.lruId = lruId ∧ (lruId = 1 ∨ lruId = 2)
  dataSize : ∀ lruId, s.dataSize lruId = s.dataBytes lruId
  ghostSize : ∀ lruId, s.ghostSize lruId = s.ghostBytes lruId
  size : s.size =
    s.dataBytes 1 + s.dataBytes 2 + s.ghostBytes 1 + s.ghostBytes 2 + s.lookupBytes
  notClamped : s.clamped = false
  bound : 0 ≤ s.p ∧ s.p ≤ s.capacityBytes

/-- The promised operations that the policy handles: a victim is asked for when `incoming_objsize_`
is at most the capacity, as it is from the first admission on, and the total size fits into 64
bits. -/
def Meets (d : Driven) (a : Action) : Prop :=
  Promised d a ∧
    match a with
    | .get _ => True
    | .update key value => ∀ item ∈ d.cache.resident key,
        d.cache.size + (key.getKeyLength + 4 + 1 + value.valuesize) <
          uint64Limit + item.getSizeForCapacity
    | .admitObject key value => d.cache.keyLookup.lookup key = none →
        d.cache.size + (key.getKeyLength + 4 + 1 + value.valuesize) + (key.getKeyLength + 8) <
          uint64Limit
    | .getVictimKey => d.cache.incomingObjsize ≤ d.cache.capacityBytes
    | .evictWithGivenKey _ => True

instance (d : Driven) : (a : Action) → Decidable (Meets d a)
  | .get key => inferInstanceAs (Decidable (Promised d (.get key) ∧ True))
  | .update key value => inferInstanceAs (Decidable (Promised d (.update key value) ∧
      ∀ item ∈ d.cache.resident key, d.cache.size + (key.getKeyLength + 4 + 1 + value.valuesize) <
        uint64Limit + item.getSizeForCapacity))
  | .admitObject key value => inferInstanceAs (Decidable (Promised d (.admitObject key value) ∧
      (d.cache.keyLookup.lookup key = none →
        d.cache.size + (key.getKeyLength + 4 + 1 + value.valuesize) + (key.getKeyLength + 8) <
          uint64Limit)))
  | .getVictimKey => inferInstanceAs (Decidable (Promised d .getVictimKey ∧
      d.cache.incomingObjsize ≤ d.cache.capacityBytes))
  | .evictWithGivenKey key =>
      inferInstanceAs (Decidable (Promised d (.evictWithGivenKey key) ∧ True))

/-- What should hold in every reached state: the representation, no abort of an allowed operation,
and a victim iff an object is cached, which is then a cached key. -/
structure Correct (C : Driven → Action → Prop) (d : Driven) : Prop where
  represents : Represents d.cache
  total : ∀ a, C d a → (step d a).isSome = true
  victim : C d .getVictimKey → ∃ victim, d.cache.getVictimKey = some victim ∧
    (victim.isSome = true ↔ ∃ lruId, (d.cache.dataList lruId).toList ≠ []) ∧
      ∀ key ∈ victim, d.cache.HoldsObject key

end Covered.Cache.Arc
