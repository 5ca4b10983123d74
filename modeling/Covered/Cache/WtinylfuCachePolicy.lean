import Mathlib.Data.Rat.Floor
import Covered.Cache.SlruCachePolicy
import Covered.Lib.PlaceTable

/-!
# The W-TinyLFU policy

A small LRU window in front of a segmented LRU main cache. Every new object enters the window. An
eviction moves the tail of the window to the main cache while that has room. When it has none, the
tail of the window and the victim of the main cache are compared by the frequencies that a counting
Bloom filter estimates: the more frequent one stays. An eviction ends when an object of the window
is evicted, or when the window is empty and an object of the main cache is evicted.

The hash functions of the filter are the parameter `KeyHash`. The two ratios of the constructor and
the size of the filter are computed with exact numbers instead of doubles.

The size of an object is a 32-bit number where it is checked against the window, but the test for
room in the main cache adds the bytes of key and value as 64-bit numbers. `ObjectFits` says that the
two agree.
-/

set_option autoImplicit false

namespace Covered.Cache.Wtinylfu

open Common Lib Lib.Checked Lib.Execution

/-! ## The counting Bloom filter -/

/-- The hash function of each seed. -/
abbrev KeyHash := Nat → Key → Nat

/-- The counters; a key has one for each hash function. -/
structure CBF where
  hashes : Nat
  counterNum : Nat
  counters : Nat → Nat := fun _ => 0

namespace CBF

/-- `log` of the error rate `0.001`. -/
def logError : ℚ := -6907755278982137 / 10 ^ 15

/-- Counters for each entry, from `ln(2)^2`. -/
def bpe : ℚ := -logError / (480453013918201 / 10 ^ 15)

/-- Number of hash functions, from `ln(2)`. -/
def hashNum : Nat := ⌈(693147180559945 / 10 ^ 15 : ℚ) * bpe⌉₊

/-- Fails if there are too few counters or too many hash functions. -/
def create (entries : Nat) : Option CBF := do
  let counterNum := min ⌈bpe * entries⌉₊ (2 ^ 31 - 1)
  require (counterNum ≥ 1)
  require (hashNum ≥ 1)
  require (hashNum ≤ 10)
  return {
    hashes := hashNum
    counterNum := if counterNum < hashNum then hashNum * 2 else counterNum }

/-- The counters of a key. -/
def hashValues (hash : KeyHash) (c : CBF) (key : Key) : List Nat :=
  (List.range c.hashes).map fun seed => hash seed key % c.counterNum

def minCount (c : CBF) (hashValues : List Nat) : Nat :=
  hashValues.foldl (fun count i => min count (c.counters i)) (2 ^ 32 - 1)

/-- The least counter of a key; an update increments all of them before. -/
def access (hash : KeyHash) (c : CBF) (key : Key) (isUpdate : Bool) : Option (CBF × Nat) := do
  require (c.counterNum ≠ 0)
  let hashValues := c.hashValues hash key
  require (∀ i ∈ hashValues, i < c.counterNum)
  let minCount := c.minCount hashValues
  if isUpdate = true ∧ minCount < 2 ^ 32 - 1 then
    let counters := hashValues.foldl (fun counters i =>
      Function.update counters i ((counters i + 1) % 2 ^ 32)) c.counters
    return ({ c with counters := counters }, minCount + 1)
  else return (c, minCount)

def estimate (hash : KeyHash) (c : CBF) (key : Key) : Option Nat :=
  (c.access hash key false).map Prod.snd

def update (hash : KeyHash) (c : CBF) (key : Key) : Option CBF :=
  (c.access hash key true).map Prod.fst

def decay (c : CBF) : CBF := { c with counters := fun i => c.counters i / 2 }

def getSizeForCapacity (c : CBF) : Nat := c.counterNum * 4

end CBF

/-! ## The policy -/

/-- An object of the window. -/
structure WtinylfuItem where
  key : Key
  value : Value
deriving DecidableEq

def WtinylfuItem.getSizeForCapacity (item : WtinylfuItem) : Nat := objectSize item.key item.value

/-- Bytes of a lookup entry of the window: the key and an iterator. -/
def entryBytes (key : Key) : Nat := key.getKeyLength + 8

/-- The window with its lookup table and byte counter, the main cache and the filter. -/
structure WtinylfuCachePolicy where
  windowCacheMaxBytes : Nat
  mainCacheMaxBytes : Nat
  cbfDecayThreshold : Nat
  cbf : CBF
  mainCache : Slru.SlruCachePolicy
  windowCache : LinkedList WtinylfuItem := .empty
  keyLookupForWindow : UnorderedMap Key Nat := ∅
  windowSize : Nat := 0
  requestBytesForMain : Nat := 0

/-- The filter expects an object for each 10 KiB of the main cache and takes its room. -/
def create (capacityBytes : Nat) : Option WtinylfuCachePolicy := do
  let mainCacheSize := capacityBytes * 99 / 100
  let cbf ← CBF.create (mainCacheSize / 10 / 1024)
  require (cbf.getSizeForCapacity < mainCacheSize)
  let mainCacheMaxBytes := mainCacheSize - cbf.getSizeForCapacity
  return {
    windowCacheMaxBytes := capacityBytes / 100
    mainCacheMaxBytes := mainCacheMaxBytes
    cbfDecayThreshold := 32 * mainCacheMaxBytes % uint64Limit
    cbf := cbf
    mainCache := Slru.create mainCacheMaxBytes }

namespace WtinylfuCachePolicy

def decreaseWindowSize (s : WtinylfuCachePolicy) (decreaseBytes : Nat) : WtinylfuCachePolicy :=
  { s with windowSize := if s.windowSize ≤ decreaseBytes then 0 else s.windowSize - decreaseBytes }

def increaseWindowSize (s : WtinylfuCachePolicy) (increaseBytes : Nat) : WtinylfuCachePolicy :=
  { s with windowSize := (s.windowSize + increaseBytes) % uint64Limit }

/-! ### Accesses -/

/-- The object of a key moves, possibly with a new value, to the head of the window. -/
def accessWindow (s : WtinylfuCachePolicy) (key : Key) (newValue : Option Value) :
    Option (WtinylfuCachePolicy × Option Value) :=
  match s.keyLookupForWindow.lookup key with
  | none => some (s, none)
  | some it => do
      let item ← s.windowCache.get it
      let tmpItem : WtinylfuItem := ⟨key, newValue.getD item.value⟩
      let s' := (s.decreaseWindowSize item.getSizeForCapacity).increaseWindowSize
        tmpItem.getSizeForCapacity
      return ({ s' with
        windowCache := (s.windowCache.erase it).pushFront tmpItem
        keyLookupForWindow := s.keyLookupForWindow.insert key s.windowCache.next },
        some item.value)

/-- The main cache is read, and then updated if there is a new value. -/
def accessMain (s : WtinylfuCachePolicy) (key : Key) (newValue : Option Value) :
    Option (WtinylfuCachePolicy × Option Value) := do
  let (main, fetchedValue) ← s.mainCache.get key
  match fetchedValue, newValue with
  | some fetchedValue, some value =>
      let (main', isLocalCached) ← main.update key value
      require (isLocalCached = true)
      return ({ s with mainCache := main' }, some fetchedValue)
  | fetchedValue, _ => return ({ s with mainCache := main }, fetchedValue)

/-- A request of the main cache is counted. The filter decays after enough bytes. -/
def countRequest (hash : KeyHash) (s : WtinylfuCachePolicy) (key : Key) (value : Value) :
    Option WtinylfuCachePolicy := do
  let cbf ← s.cbf.update hash key
  let bytes := (s.requestBytesForMain + (key.getKeyLength + value.valuesize)) % uint64Limit
  if bytes ≥ s.cbfDecayThreshold then
    return { s with cbf := cbf.decay, requestBytesForMain := 0 }
  else return { s with cbf := cbf, requestBytesForMain := bytes }

/-- The access of a get (without a new value) or of an update. Returns the old value of a cached
key. -/
def access (hash : KeyHash) (s : WtinylfuCachePolicy) (key : Key) (newValue : Option Value) :
    Option (WtinylfuCachePolicy × Option Value) := do
  let (s1, valueInWindow) ← s.accessWindow key newValue
  let (s2, valueInMain) ← s1.accessMain key newValue
  match valueInMain with
  | none => return (s2, valueInWindow)
  | some valueInMain =>
      let fetchedValue := valueInWindow.getD valueInMain
      let s3 ← s2.countRequest hash key (newValue.getD fetchedValue)
      return (s3, some fetchedValue)

def get (hash : KeyHash) (s : WtinylfuCachePolicy) (key : Key) :
    Option (WtinylfuCachePolicy × Option Value) :=
  s.access hash key none

def update (hash : KeyHash) (s : WtinylfuCachePolicy) (key : Key) (value : Value) :
    Option (WtinylfuCachePolicy × Bool) :=
  (s.access hash key (some value)).map fun r => (r.1, r.2.isSome)

/-- An object that is not larger than the window and a list of the main cache. -/
def canAdmit (s : WtinylfuCachePolicy) (objsize : Nat) : Bool :=
  decide (objsize ≤ s.windowCacheMaxBytes) && decide (objsize ≤ s.mainCache.lruMaxNBytes)

/-- Admit a key into the window. A key that is already cached only causes a warning. -/
def admitObject (s : WtinylfuCachePolicy) (key : Key) (value : Value) : WtinylfuCachePolicy :=
  if (s.keyLookupForWindow.lookup key).isSome = true then s
  else if (s.mainCache.keyLookup.lookup key).isSome = true then s
  else
    let item : WtinylfuItem := ⟨key, value⟩
    let s' := (s.increaseWindowSize item.getSizeForCapacity).increaseWindowSize (entryBytes key)
    { s' with
      windowCache := s.windowCache.pushFront item
      keyLookupForWindow :=
        UnorderedMap.insertNew s.keyLookupForWindow key s.windowCache.next }

/-! ### Eviction -/

/-- The victims of an eviction. -/
abbrev Victims := UnorderedMap Key Value

/-- The state of the loop that evicts. -/
structure Eviction where
  cache : WtinylfuCachePolicy
  victims : Victims
  evicted : Bool

/-- The main cache has room for an object with the number of its list. -/
def hasRoom (s : WtinylfuCachePolicy) (item : WtinylfuItem) : Bool :=
  decide ((s.mainCache.size + item.key.getKeyLength + item.value.valuesize + 4) % uint64Limit ≤
    s.mainCacheMaxBytes)

/-- The tail of the window leaves the window and its lookup table. -/
def removeFromWindow (s : WtinylfuCachePolicy) (it : Nat) (item : WtinylfuItem) :
    Option WtinylfuCachePolicy := do
  let s' := (s.decreaseWindowSize item.getSizeForCapacity).decreaseWindowSize
    (entryBytes item.key)
  require ((s.keyLookupForWindow.lookup item.key).isSome = true)
  return { s' with
    windowCache := s.windowCache.erase it
    keyLookupForWindow := s.keyLookupForWindow.erase item.key }

/-- The tail of the window moves to the main cache. -/
def moveToMain (s : WtinylfuCachePolicy) (it : Nat) (item : WtinylfuItem) :
    Option WtinylfuCachePolicy := do
  let main ← s.mainCache.admitObject item.key item.value
  ({ s with mainCache := main }).removeFromWindow it item

/-- The victim of the main cache; it is an error if there is none. -/
def mainVictim (s : WtinylfuCachePolicy) : Option Key := s.mainCache.getVictimKey.bind id

/-- A key of the main cache is evicted and becomes a victim. -/
def evictFromMain (e : Eviction) (victimKey : Key) : Option Eviction := do
  let (main, value) ← e.cache.mainCache.evictWithGivenKey victimKey
  let victimValue ← value
  return { e with
    cache := { e.cache with mainCache := main }
    victims := UnorderedMap.insertNew e.victims victimKey victimValue }

/-- The main cache is full: the less frequent one of the two victims is evicted. -/
def compete (hash : KeyHash) (e : Eviction) (it : Nat) (item : WtinylfuItem) :
    Option Eviction := do
  let mainVictimKey ← e.cache.mainVictim
  let windowFrequency ← e.cache.cbf.estimate hash item.key
  let mainFrequency ← e.cache.cbf.estimate hash mainVictimKey
  if windowFrequency > mainFrequency then
    let e' ← evictFromMain e mainVictimKey
    let s ← e'.cache.moveToMain it item
    return { e' with cache := s }
  else
    let s ← e.cache.removeFromWindow it item
    return {
      cache := s
      victims := UnorderedMap.insertNew e.victims item.key item.value
      evicted := true }

/-- The tail of the window finds room in the main cache or competes for it. -/
def windowMove (hash : KeyHash) (e : Eviction) (it : Nat) (item : WtinylfuItem) :
    Option Eviction :=
  if e.cache.hasRoom item = true then
    (e.cache.moveToMain it item).map fun s => { e with cache := s }
  else compete hash e it item

/-- One pass of the loop. -/
def pass (hash : KeyHash) (e : Eviction) : Option Eviction :=
  match e.cache.windowCache.back with
  | some (it, item) => do
      let e' ← windowMove hash e it item
      let cbf ← e'.cache.cbf.update hash item.key
      return { e' with cache := { e'.cache with cbf := cbf } }
  | none => do
      let mainVictimKey ← e.cache.mainVictim
      let e' ← evictFromMain e mainVictimKey
      return { e' with evicted := true }

/-- Every pass but the last one takes an object out of the window. -/
def evictNoGivenKey (hash : KeyHash) (s : WtinylfuCachePolicy) (victims : Victims) :
    Option (WtinylfuCachePolicy × Victims) := do
  let e ← whileLoop (fun e => !e.evicted) (pass hash) (s.windowCache.toList.length + 1)
    { cache := s, victims := victims, evicted := false }
  return (e.cache, e.victims)

def getSizeForCapacity (s : WtinylfuCachePolicy) : Nat :=
  (s.windowSize + s.cbf.getSizeForCapacity + s.mainCache.size) % uint64Limit

end WtinylfuCachePolicy

open WtinylfuCachePolicy

/-- The operations of the policy. -/
inductive Action
  | get (key : Key)
  | update (key : Key) (value : Value)
  | admitObject (key : Key) (value : Value)
  | evictNoGivenKey
deriving DecidableEq

/-- What an operation returns. -/
inductive Output
  | value (value : Option Value)
  | flag (isCached : Bool)
  | victims (victims : Victims)
  | void

/-- One operation; `none` is a failed assertion, an invalid iterator or a loop that does not end. -/
def step (hash : KeyHash) (s : WtinylfuCachePolicy) :
    Action → Option (WtinylfuCachePolicy × Output)
  | .get key => (s.get hash key).map fun r => (r.1, .value r.2)
  | .update key value => (s.update hash key value).map fun r => (r.1, .flag r.2)
  | .admitObject key value => some (s.admitObject key value, .void)
  | .evictNoGivenKey => (s.evictNoGivenKey hash ∅).map fun r => (r.1, .victims r.2)

/-! ## What the policy is for -/

namespace WtinylfuCachePolicy

/-- The value of a key in the window. -/
def valueInWindow (s : WtinylfuCachePolicy) (key : Key) : Option Value :=
  (found s.keyLookupForWindow s.windowCache.get key).map WtinylfuItem.value

/-- The value of a key in the main cache. -/
def valueInMain (s : WtinylfuCachePolicy) (key : Key) : Option Value :=
  (s.mainCache.resident key).map Slru.SlruItem.value

/-- The value of a cached key. -/
def cached (s : WtinylfuCachePolicy) (key : Key) : Option Value :=
  (s.valueInWindow key).or (s.valueInMain key)

/-- Bytes of the objects of the window and of its lookup table. -/
def windowBytes (s : WtinylfuCachePolicy) : Nat :=
  s.windowCache.bytes WtinylfuItem.getSizeForCapacity +
    s.keyLookupForWindow.sumBy fun key _ => entryBytes key

/-- Some object is cached. -/
def Nonempty (s : WtinylfuCachePolicy) : Prop :=
  s.windowCache.toList ≠ [] ∨ ∃ i < Slru.nSeg, (s.mainCache.lruLists i).toList ≠ []

end WtinylfuCachePolicy

/-- The window matches its lookup table and its counter and shares no key with the main cache. -/
structure Represents (s : WtinylfuCachePolicy) : Prop where
  window : Indexes WtinylfuItem.key s.keyLookupForWindow s.windowCache.get
  windowSize : s.windowSize = s.windowBytes
  disjoint : ∀ key, s.valueInWindow key = none ∨ s.valueInMain key = none

/-- What an operation is promised: objects pass the check of the policy, the main cache keeps its
representation when it is updated, and an eviction finds a cached object. -/
def Promised (s : WtinylfuCachePolicy) : Action → Prop
  | .get _ => True
  | .update key value => s.canAdmit (objectSize key value) = true ∧
      ∀ r ∈ s.mainCache.get key, Slru.Meets r.1 (.update key value)
  | .admitObject key value => s.canAdmit (objectSize key value) = true
  | .evictNoGivenKey => s.Nonempty

/-- Bytes of all cached objects, once they are in the main cache. -/
def footprint (s : WtinylfuCachePolicy) : Nat :=
  s.mainCache.size + s.windowSize + 4 * s.windowCache.toList.length

/-- The condition: sizes of objects are 32-bit numbers, and those of all objects together are 64-bit
numbers. -/
def Meets (s : WtinylfuCachePolicy) (a : Action) : Prop :=
  Promised s a ∧ match a with
    | .update key value => ObjectFits key value ∧ footprint s + objectSize key value < uint64Limit
    | .admitObject key value => ObjectFits key value ∧
        footprint s + objectSize key value + entryBytes key + 4 < uint64Limit
    | _ => True

instance (s : WtinylfuCachePolicy) : Decidable s.Nonempty :=
  inferInstanceAs (Decidable (_ ∨ ∃ i < Slru.nSeg, _))

instance (s : WtinylfuCachePolicy) : (a : Action) → Decidable (Promised s a)
  | .get _ => inferInstanceAs (Decidable True)
  | .update key value => inferInstanceAs (Decidable (s.canAdmit (objectSize key value) = true ∧
      ∀ r ∈ s.mainCache.get key, Slru.Meets r.1 (.update key value)))
  | .admitObject key value => inferInstanceAs (Decidable
      (s.canAdmit (objectSize key value) = true))
  | .evictNoGivenKey => inferInstanceAs (Decidable s.Nonempty)

instance (s : WtinylfuCachePolicy) : (a : Action) → Decidable (Meets s a)
  | .get key => inferInstanceAs (Decidable (Promised s (.get key) ∧ True))
  | .update key value => inferInstanceAs (Decidable (Promised s (.update key value) ∧
      ObjectFits key value ∧ footprint s + objectSize key value < uint64Limit))
  | .admitObject key value => inferInstanceAs (Decidable (Promised s (.admitObject key value) ∧
      ObjectFits key value ∧
        footprint s + objectSize key value + entryBytes key + 4 < uint64Limit))
  | .evictNoGivenKey => inferInstanceAs (Decidable (Promised s .evictNoGivenKey ∧ True))

/-- What should hold in every reached state: the representation; and if some object is cached, an
eviction ends without failure, keeps the representation, and reports, as at least one victim,
exactly the objects that it takes out of the cache. -/
structure Correct (hash : KeyHash) (s : WtinylfuCachePolicy) : Prop where
  represents : Represents s
  evicts : s.Nonempty → ∃ s' victims, s.evictNoGivenKey hash ∅ = some (s', victims) ∧
    Represents s' ∧ victims ≠ ∅ ∧ ∀ key value, victims.lookup key = some value ↔
      s.cached key = some value ∧ s'.cached key = none

end Covered.Cache.Wtinylfu
