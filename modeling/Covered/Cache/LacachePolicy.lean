import Covered.Cache.CacheWrapper
import Covered.Common.Doubles
import Covered.Lib.Execution
import Covered.Lib.SizedLists

/-!
# The LA-Cache policy

A list of objects with a lookup table, and for every key that was ever accessed, cached or not, its
last access time and up to twenty inter-arrival times. The victim is the object with the smallest
rank score among all objects or, if there are more than a hundred, among a hundred that are drawn at
random; the score estimates the delay that a miss costs for each byte.

The size counts the arrival information of all keys. It only grows: an eviction takes the object and
its entry of the lookup table off and leaves the arrival information.

The generator has a fixed seed, so that a draw depends on how many there were before it.
-/

set_option autoImplicit false

namespace Covered.Cache.Lacache

open Common Lib Lib.Checked Lib.Execution
open Doubles (ofRat ofInt ofNat truncate lt le)

variable {F : Type} [Doubles F]

/-! ## Arrivals and objects -/

/-- Inter-arrival times that are kept at most. -/
def maxInTimes : Nat := 20

/-- The last inter-arrival times of a key, the oldest first. -/
structure InTimes (F : Type) where
  cTimes : List F := []

namespace InTimes

def recordArrivTimes (t : InTimes F) (itime : F) : InTimes F :=
  let cTimes := t.cTimes ++ [itime]
  ⟨if cTimes.length > maxInTimes then cTimes.tail else cTimes⟩

/-- The inverse of the average. The sum is an integer that is rounded after every summand. -/
def getLambda (t : InTimes F) : F :=
  if t.cTimes.length ≥ 3 then
    let sum : Int := t.cTimes.foldl (fun sum itime => truncate (ofInt sum + itime)) 0
    ofNat 1 / (ofInt sum / ofNat t.cTimes.length)
  else ofRat (1 / 100000000)

def getSizeForCapacity (t : InTimes F) : Nat := 8 * t.cTimes.length

end InTimes

/-- The arrivals of a key, in units of accesses of the cache. -/
structure ArrivalInfo (F : Type) where
  lrt : Nat
  interTimes : InTimes F
  lambda : F

namespace ArrivalInfo

def updateForNewInterTime (a : ArrivalInfo F) (interTime : F) : ArrivalInfo F :=
  let interTimes := a.interTimes.recordArrivTimes interTime
  { a with interTimes := interTimes, lambda := interTimes.getLambda }

def getSizeForCapacity (a : ArrivalInfo F) : Nat := 8 + a.interTimes.getSizeForCapacity + 8

end ArrivalInfo

/-- A cached object with the latency of its miss in microseconds. -/
structure CacheInfo where
  key : Key
  value : Value
  missLatency : Nat
deriving DecidableEq

namespace CacheInfo

/-- The latency is at most a second. -/
def isUse2 (info : CacheInfo) : Bool := decide (info.missLatency ≤ 1000000)

def getSizeForCapacity (info : CacheInfo) : Nat := objectSize info.key info.value + 8 + 1

end CacheInfo

/-- Objects that are drawn at most. -/
def sampleSize : Nat := 100

/-- `std::sample`: objects of the list in their order, as many as asked for; the first argument is
the number of draws so far. -/
structure Sampler where
  sample : Nat → List CacheInfo → List CacheInfo
  sublist : ∀ draws infos, (sample draws infos).Sublist infos
  length : ∀ draws infos, (sample draws infos).length = min sampleSize infos.length

/-! ## The policy -/

structure LACache (F : Type) where
  size : Nat := 8
  timer : Nat := 0
  draws : Nat := 0
  entries : LinkedList CacheInfo := .empty
  positions : UnorderedMap Key Nat := ∅
  perkeyArrivalinfo : UnorderedMap Key (ArrivalInfo F) := ∅

/-- A new policy. -/
def create : LACache F := {}

namespace LACache

/-- The size after something that counted `before` bytes now counts `after` bytes. -/
def resize (size before after : Nat) : Option Nat :=
  if after > before then uint64Add size (after - before)
  else if after < before then some (uint64Minus size (before - after))
  else some size

def updateArrivalInfo (s : LACache F) (key : Key) : Option (LACache F) :=
  match s.perkeyArrivalinfo.lookup key with
  | some info => do
      let interTime : F := ofNat (s.timer - info.lrt) / ofNat 1
      require (lt (ofNat 0) interTime = true)
      let info' := { info.updateForNewInterTime interTime with lrt := s.timer }
      let size ← resize s.size info.getSizeForCapacity info'.getSizeForCapacity
      return { s with
        size := size
        timer := s.timer + 1
        perkeyArrivalinfo := s.perkeyArrivalinfo.insert key info' }
  | none => do
      let info : ArrivalInfo F := ⟨s.timer, {}, ofNat 0⟩
      let size ← uint64Add s.size (key.getKeyLength + info.getSizeForCapacity)
      return { s with
        size := size
        timer := s.timer + 1
        perkeyArrivalinfo := s.perkeyArrivalinfo.insert key info }

def get (s : LACache F) (key : Key) : Option (LACache F × Option Value) :=
  match s.positions.lookup key with
  | none => (s.updateArrivalInfo key).map fun t => (t, none)
  | some it => do
      let info ← s.entries.get it
      require (info.key = key)
      let t ← s.updateArrivalInfo key
      return (t, some info.value)

def update (s : LACache F) (key : Key) (value : Value) : Option (LACache F × Bool) :=
  match s.positions.lookup key with
  | none => (s.updateArrivalInfo key).map fun t => (t, false)
  | some it => do
      let info ← s.entries.get it
      let info' := { info with value := value }
      let size ← resize s.size info.getSizeForCapacity info'.getSizeForCapacity
      let t ← ({ s with size := size, entries := s.entries.set it info' }).updateArrivalInfo key
      return (t, true)

/-- A key that is not cached is admitted from its second access on. -/
def needAdmit (s : LACache F) (key : Key) : Bool :=
  match s.positions.lookup key, s.perkeyArrivalinfo.lookup key with
  | none, some info => lt (ofNat 0) info.lambda
  | _, _ => false

/-- Admit a key. A key that is already cached only causes a warning. -/
def admitObject (s : LACache F) (key : Key) (value : Value) (missLatency : Nat) :
    Option (LACache F) :=
  match s.positions.lookup key with
  | some _ => some s
  | none => do
      let info : CacheInfo := ⟨key, value, missLatency⟩
      let size ← uint64Add s.size info.getSizeForCapacity
      let size' ← uint64Add size (key.getKeyLength + 8)
      return { s with
        size := size'
        entries := s.entries.pushBack info
        positions := s.positions.insert key s.entries.next }

/-- The expected delay of a miss for each byte. -/
def calculateRankScore (s : LACache F) (info : CacheInfo) (arrivals : ArrivalInfo F) : F :=
  let lrt : F := ofNat (s.timer - arrivals.lrt) + ofNat 1
  let size : F := ofNat (objectSize info.key info.value) + ofNat 1
  let glambda : F :=
    if info.isUse2 && le (ofNat 12 * ofNat 1 / arrivals.lambda) lrt then ofNat 1 / lrt
    else arrivals.lambda
  let lt : F := glambda * (ofNat info.missLatency + size * ofNat 1000 / ofNat 104857600)
  lt * (lt + ofNat 1) / (lt + ofNat 2) / ofNat 1 / size

/-- The better of the victim so far and an object, whose arrivals have to be known. -/
def betterVictim (s : LACache F) (victim : Option (F × Key)) (info : CacheInfo) :
    Option (Option (F × Key)) := do
  let arrivals ← s.perkeyArrivalinfo.lookup info.key
  let score := s.calculateRankScore info arrivals
  return match victim with
    | none => some (score, info.key)
    | some best => if lt score best.1 then some (score, info.key) else some best

/-- All objects are compared. -/
def comparesAll (s : LACache F) : Bool := decide (s.entries.toList.length ≤ sampleSize)

def getVictimKey (sampler : Sampler) (s : LACache F) : Option (LACache F × Option Key) :=
  if s.entries.toList.length > 0 then do
    let sampled :=
      if s.comparesAll then s.entries.toList else sampler.sample s.draws s.entries.toList
    let victim ← sampled.foldlM s.betterVictim none
    return ({ s with draws := if s.comparesAll then s.draws else s.draws + 1 },
      some ((victim.map Prod.snd).getD ⟨[]⟩))
  else some (s, none)

/-- Evict a key, if it is cached. The arrival information stays. -/
def evictWithGivenKey (s : LACache F) (key : Key) : Option (LACache F × Bool) :=
  match s.positions.lookup key with
  | none => some (s, false)
  | some it => do
      let info ← s.entries.get it
      let size := uint64Minus s.size info.getSizeForCapacity
      return ({ s with
        size := uint64Minus size (key.getKeyLength + 8)
        entries := s.entries.erase it
        positions := s.positions.erase key }, true)

def getSizeForCapacity (s : LACache F) : Nat := s.size

end LACache

/-- The operations of the policy. -/
inductive Action
  | get (key : Key)
  | update (key : Key) (value : Value)
  | admitObject (key : Key) (value : Value) (missLatency : Nat)
  | getVictimKey
  | evictWithGivenKey (key : Key)
deriving DecidableEq

/-- What an operation returns. -/
inductive Output
  | value (value : Option Value)
  | flag (isCached : Bool)
  | victim (key : Option Key)
  | void
deriving DecidableEq

/-- One operation; `none` is a failed assertion, an invalid iterator, an overflow or an exit. -/
def step (sampler : Sampler) (s : LACache F) : Action → Option (LACache F × Output)
  | .get key => (s.get key).map fun r => (r.1, .value r.2)
  | .update key value => (s.update key value).map fun r => (r.1, .flag r.2)
  | .admitObject key value missLatency =>
      (s.admitObject key value missLatency).map fun t => (t, .void)
  | .getVictimKey => (s.getVictimKey sampler).map fun r => (r.1, .victim r.2)
  | .evictWithGivenKey key => (s.evictWithGivenKey key).map fun r => (r.1, .flag r.2)

/-- The use that is promised: an admitted key was accessed. -/
def Promised (s : LACache F) : Action → Prop
  | .get _ => True
  | .update _ _ => True
  | .admitObject key _ _ => (s.perkeyArrivalinfo.lookup key).isSome = true
  | .getVictimKey => True
  | .evictWithGivenKey _ => True

instance (s : LACache F) : (a : Action) → Decidable (Promised s a)
  | .get _ => inferInstanceAs (Decidable True)
  | .update _ _ => inferInstanceAs (Decidable True)
  | .admitObject key _ _ =>
      inferInstanceAs (Decidable ((s.perkeyArrivalinfo.lookup key).isSome = true))
  | .getVictimKey => inferInstanceAs (Decidable True)
  | .evictWithGivenKey _ => inferInstanceAs (Decidable True)

end Covered.Cache.Lacache
