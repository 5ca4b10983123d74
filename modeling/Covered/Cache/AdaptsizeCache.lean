import Covered.Cache.CacheWrapper
import Covered.Common.Doubles
import Covered.Lib.Execution
import Covered.Lib.SizedLists

/-!
# The AdaptSize cache

An LRU list of objects with a lookup table. A new object is admitted with a probability that falls
with its size. The scale of that probability is chosen anew every half a million accesses so that a
model of the hit rate is best; what the model needs is counted for each key, since the last choice
(`intervalMetadata`) and before it (`longTermMetadata`), and copied to vectors (`alignedReqCount`
and so on). The size counts all of this, and an eviction takes only the object and its entry of the
lookup table off.

The statistics and the size are a structure of their own, `Statistics`: the choice of the scale does
not touch the objects.

Where `reconfigure` deletes a key, it first erases the entry and then reads the length of the key
from the entry after it. What the read behind the last entry gives (`none` is a crash) and the order
in which the entries of a table are visited are up to the `Platform`.
-/

set_option autoImplicit false

namespace Covered.Cache.Adaptsize

open Common Lib Lib.Checked Lib.Execution
open Doubles (ofRat ofNat exp log2 pow fabs lt le eq isNan)

variable {F : Type} [Doubles F]

/-! ## Constants and the hit rate of one object -/

def ewmaDecay : ℚ := 3 / 10

def gssR : ℚ := 61803399 / 100000000

/-- The golden section on the other side. -/
def gssV : F := ofNat 1 - ofRat gssR

def tol : ℚ := 3 / 100000000

def maxIterations : Nat := 15

def reconfigurationInterval : Nat := 500000

def oP1 (t l p : F) : F :=
  l * p * t * (ofNat 840 + ofNat 60 * l * t + ofNat 20 * l * l * t * t + l * l * l * t * t * t)

def oP2 (t l p : F) : F :=
  ofNat 840 + ofNat 120 * l * (-ofNat 3 + ofNat 7 * p) * t +
    ofNat 60 * l * l * (ofNat 1 + p) * t * t +
    ofNat 4 * l * l * l * (-ofNat 1 + ofNat 5 * p) * t * t * t +
    l * l * l * l * p * t * t * t * t

/-! ## Statistics -/

/-- Requests of a key and the size of its object. -/
structure ObjInfo (F : Type) where
  requestCount : F
  objSize : Nat

/-- Bytes of a key and its counters. -/
def infoBytes (key : Key) : Nat := key.getKeyLength + 16

/-- The size of the cache and the data of the choice of the scale `cParam`. -/
structure Statistics (F : Type) where
  currentSize : Nat
  cParam : F
  statSize : Nat := 0
  nextReconfiguration : Nat := reconfigurationInterval
  longTermMetadata : UnorderedMap Key (ObjInfo F) := ∅
  intervalMetadata : UnorderedMap Key (ObjInfo F) := ∅
  alignedReqCount : List F := []
  alignedObjSize : List F := []
  alignedAdmProb : List F := []

/-- The order in which the entries of a table are visited and the read of a key length behind the
last entry of `longTermMetadata`. -/
structure Platform (F : Type) where
  order : List (Key × ObjInfo F) → List (Key × ObjInfo F)
  perm : ∀ entries, (order entries).Perm entries
  readAtEnd : Statistics F → Option Nat

/-- The order in which the statistics are stored, and nothing to read behind them. -/
def storedOrder : Platform ℚ where
  order entries := entries
  perm _ := .refl _
  readAtEnd _ := none

namespace Statistics

/-- The size with `bytes` more. -/
def add (s : Statistics F) (bytes : Nat) : Option (Statistics F) :=
  (uint64Add s.currentSize bytes).map fun n => { s with currentSize := n }

/-- The size with `bytes` less, at least zero. -/
def sub (s : Statistics F) (bytes : Nat) : Statistics F :=
  { s with currentSize := uint64Minus s.currentSize bytes }

/-! ### The hit rate -/

/-- The vectors of request counts and of sizes, element by element. -/
def aligned (s : Statistics F) : List (F × F) := s.alignedReqCount.zip s.alignedObjSize

/-- The vectors with the admission probabilities. -/
def alignedWithProb (s : Statistics F) : List ((F × F) × F) := s.aligned.zip s.alignedAdmProb

/-- The bytes that are cached in a time `theT`. -/
def expectedBytes (s : Statistics F) (theT : F) : F :=
  s.alignedWithProb.foldl (fun theC x =>
    let reqTProd := x.1.1 * theT
    if lt (ofNat 150) reqTProd then theC + x.1.2
    else
      let expTerm := exp reqTProd - ofNat 1
      let expAdmProd := x.2 * expTerm
      theC + x.1.2 * (expAdmProd / (ofNat 1 + expAdmProd))) (ofNat 0)

/-- At most `n` iterations for the time in which the expected bytes fill the cache. -/
def calculateT (s : Statistics F) (cacheSize : Nat) : Nat → F → F
  | 0, theT => theT
  | n + 1, theT =>
      if lt (ofNat (10 ^ 70)) theT then theT
      else s.calculateT cacheSize n (ofNat cacheSize * theT / s.expectedBytes theT)

/-- The hits of an object, between none and all. -/
def hitRatio (theT req prob : F) : F :=
  let tmp01 := oP1 theT req prob
  let tmp02 := oP2 theT req prob
  let tmp : F :=
    if !eq tmp01 (ofNat 0) && eq tmp02 (ofNat 0) then ofNat 0 else tmp01 / tmp02
  if lt tmp (ofNat 0) then ofNat 0 else if lt (ofNat 1) tmp then ofNat 1 else tmp

/-- The expected hits with the scale `2 ^ log2c`. It fills the vector of probabilities. -/
def modelHitRate (cacheSize : Nat) (s : Statistics F) (log2c : F) :
    Option (Statistics F × F) := do
  let prob (objSize : F) : F := exp (-objSize / pow (ofNat 2) log2c)
  let sumVal := s.aligned.foldl (fun sum x => sum + x.1 * prob x.2 * x.2) (ofNat 0 : F)
  if le sumVal (ofNat 0) then return (s, ofNat 0)
  let cleared := { s.sub (s.alignedAdmProb.length * 8) with alignedAdmProb := [] }
  let s' ← s.alignedObjSize.foldlM (fun u objSize =>
    ({ u with alignedAdmProb := u.alignedAdmProb ++ [prob objSize] } : Statistics F).add 8) cleared
  let theT := s'.calculateT cacheSize 10 (ofNat cacheSize / sumVal)
  let hits := s'.alignedWithProb.foldl
    (fun sum x => sum + x.1.1 * hitRatio theT x.1.1 x.2) (ofNat 0 : F)
  return (s', hits)

/-! ### The choice of the scale -/

/-- Points of the golden section search on a logarithmic scale, with the hit rates of the middle
two. -/
structure Search (F : Type) where
  x0 : F
  x1 : F
  x2 : F
  x3 : F
  h1 : F
  h2 : F

/-- A hit rate is not a number. -/
def Search.isBroken (p : Search F) : Bool := isNan p.h1 || isNan p.h2

/-- The points of the coarse grid: `2`, `6`, …; the logarithm of a 64-bit size is at most `64`. -/
def gridPoints (x3 : F) : List F :=
  ((List.range 16).map fun i => (ofNat (2 + 4 * i) : F)).takeWhile fun x => lt x x3

/-- The best point of the grid and its hit rate. -/
def gridSearch (cacheSize : Nat) (s : Statistics F) (x1 x3 : F) :
    Option (Statistics F × F × F) :=
  (gridPoints x3).foldlM (fun (r : Statistics F × F × F) x => do
    let r' ← modelHitRate cacheSize r.1 x
    return if lt r.2.2 r'.2 then (r'.1, x, r'.2) else (r'.1, r.2)) (s, x1, ofNat 0)

/-- The second middle point lies in the larger one of the two segments. -/
def prepareSearch (cacheSize : Nat) (s : Statistics F) (x0 x1 x3 bestHitRate : F) :
    Option (Statistics F × Search F) :=
  if lt (x1 - x0) (x3 - x1) then do
    let x2 := x1 + gssV * (x3 - x1)
    let r ← modelHitRate cacheSize s x2
    return (r.1, ⟨x0, x1, x2, x3, bestHitRate, r.2⟩)
  else do
    let x1' := x0 + gssV * (x1 - x0)
    let r ← modelHitRate cacheSize s x1'
    return (r.1, ⟨x0, x1', x1, x3, r.2, bestHitRate⟩)

/-- One step of the search towards the better one of the middle points. -/
def sectionStep (cacheSize : Nat) (s : Statistics F) (p : Search F) :
    Option (Statistics F × Search F) :=
  if lt p.h1 p.h2 then do
    let x := ofRat gssR * p.x2 + gssV * p.x3
    let r ← modelHitRate cacheSize s x
    return (r.1, ⟨p.x1, p.x2, x, p.x3, p.h2, r.2⟩)
  else do
    let x := ofRat gssR * p.x1 + gssV * p.x0
    let r ← modelHitRate cacheSize s x
    return (r.1, ⟨p.x0, x, p.x1, p.x2, r.2, p.h1⟩)

/-- The search is close enough. -/
def isClose (p : Search F) : Bool :=
  !lt (ofRat tol * (fabs p.x1 + fabs p.x2)) (fabs (p.x3 - p.x0))

/-- The golden section search with at most the given number of steps. -/
def sectionSearch (cacheSize : Nat) :
    Nat → Statistics F → Search F → Option (Statistics F × Search F)
  | 0, s, p => some (s, p)
  | n + 1, s, p =>
      if isClose p || p.isBroken then some (s, p)
      else (sectionStep cacheSize s p).bind fun r => sectionSearch cacheSize n r.1 r.2

/-- The scale with the best hit rate; a numerical failure leaves it. -/
def chooseScale (cacheSize : Nat) (s : Statistics F) : Option (Statistics F) := do
  let x3 : F := log2 (ofNat cacheSize)
  let (s1, x1, bestHitRate) ← gridSearch cacheSize s x3 x3
  let (s2, p) ← prepareSearch cacheSize s1 (ofNat 0) x1 x3 bestHitRate
  require (lt p.x1 p.x2 = true)
  let (s3, q) ← sectionSearch cacheSize maxIterations s2 p
  if q.isBroken then return s3
  return { s3 with cParam := pow (ofNat 2) (if lt q.h2 q.h1 then q.x1 else q.x2) }

/-! ### Reconfiguration -/

/-- Counters in `longTermMetadata`: they join those that are there, or are new. -/
def addLongTerm (s : Statistics F) (entry : Key × ObjInfo F) : Option (Statistics F) :=
  match s.longTermMetadata.lookup entry.1 with
  | some info =>
      let requestCount := info.requestCount + (ofNat 1 - ofRat ewmaDecay) * entry.2.requestCount
      some { s with longTermMetadata :=
        s.longTermMetadata.insert entry.1 { entry.2 with requestCount := requestCount } }
  | none =>
      ({ s with longTermMetadata := s.longTermMetadata.insert entry.1 entry.2 } :
        Statistics F).add (infoBytes entry.1)

/-- The counters since the last choice join those before it. -/
def persistInfo (s : Statistics F) (entry : Key × ObjInfo F) : Option (Statistics F) :=
  (s.addLongTerm entry).map fun s' => s'.sub (infoBytes entry.1)

/-- The key length that is read after an entry was erased. -/
def nextKeyLength (platform : Platform F) (s : Statistics F) (next : Option Key) : Option Nat :=
  match next with
  | some key => some key.getKeyLength
  | none => platform.readAtEnd s

/-- The visit of one entry of `longTermMetadata`, `next` being the key of the entry after it: a
counter that is too small is deleted, any other is copied to the vectors. -/
def visitInfo (platform : Platform F) (s : Statistics F) (entry : Key × ObjInfo F)
    (next : Option Key) : Option (Statistics F) :=
  if lt entry.2.requestCount (ofRat (1 / 10)) then do
    let erased := { s with
      statSize := (s.statSize + (uint64Limit - entry.2.objSize % uint64Limit)) % uint64Limit
      longTermMetadata := s.longTermMetadata.erase entry.1 }
    let keyLength ← erased.nextKeyLength platform next
    return erased.sub (keyLength + 16)
  else
    ({ s with
      alignedReqCount := s.alignedReqCount ++ [entry.2.requestCount]
      alignedObjSize := s.alignedObjSize ++ [ofNat entry.2.objSize] } : Statistics F).add 16

/-- The visits of a list of entries. -/
def visitInfos (platform : Platform F) :
    Statistics F → List (Key × ObjInfo F) → Option (Statistics F)
  | s, [] => some s
  | s, entry :: rest =>
      (visitInfo platform s entry (rest.head?.map Prod.fst)).bind fun t =>
        visitInfos platform t rest

/-- The entries of a table. -/
def entriesOf (platform : Platform F) (table : UnorderedMap Key (ObjInfo F)) :
    List (Key × ObjInfo F) :=
  platform.order (table.entries.map fun entry => (entry.1, entry.2))

/-- The long-term counters after a period. -/
def smooth (platform : Platform F) (table : UnorderedMap Key (ObjInfo F)) :
    UnorderedMap Key (ObjInfo F) :=
  (entriesOf platform table).foldl (fun t entry => t.insert entry.1
    { entry.2 with requestCount := entry.2.requestCount * ofRat ewmaDecay }) table

/-- The counters and the vectors renewed at the end of a period. -/
def renewStatistics (platform : Platform F) (s : Statistics F) : Option (Statistics F) := do
  let s1 ← (entriesOf platform s.intervalMetadata).foldlM persistInfo
    { s with longTermMetadata := smooth platform s.longTermMetadata }
  let s2 := (({ s1 with intervalMetadata := ∅ } : Statistics F).sub
    (s1.alignedReqCount.length * 8)).sub (s1.alignedObjSize.length * 8)
  visitInfos platform { s2 with alignedReqCount := [], alignedObjSize := [] }
    (entriesOf platform s2.longTermMetadata)

/-- Called at every access: at the end of a period with enough data the scale is chosen anew. -/
def reconfigure (platform : Platform F) (cacheSize : Nat) (s : Statistics F) :
    Option (Statistics F) :=
  let next := s.nextReconfiguration - 1
  if next > 0 then some { s with nextReconfiguration := next }
  else if s.statSize ≤ cacheSize * 3 % uint64Limit then
    some { s with nextReconfiguration := next + 10000 }
  else do
    let s1 ← renewStatistics platform { s with nextReconfiguration := reconfigurationInterval }
    chooseScale cacheSize s1

/-- The access of a key is counted. -/
def metadataUpdate (platform : Platform F) (cacheSize : Nat) (s : Statistics F) (key : Key)
    (objectSize : Nat) : Option (Statistics F) := do
  let s1 ← s.reconfigure platform cacheSize
  let isNew := (s1.intervalMetadata.lookup key).isNone && (s1.longTermMetadata.lookup key).isNone
  let s2 := { s1 with
    statSize := if isNew then (s1.statSize + objectSize) % uint64Limit else s1.statSize }
  match s2.intervalMetadata.lookup key with
  | some info =>
      return { s2 with intervalMetadata :=
        s2.intervalMetadata.insert key ⟨info.requestCount + ofNat 1, objectSize⟩ }
  | none =>
      ({ s2 with intervalMetadata :=
        s2.intervalMetadata.insert key ⟨ofNat 1, objectSize⟩ } : Statistics F).add (infoBytes key)

end Statistics

/-! ## The cache -/

/-- An object with its key. -/
abbrev Item := Key × Value

structure AdaptSizeCache (F : Type) where
  cacheSize : Nat
  stats : Statistics F
  cacheList : LinkedList Item := .empty
  cacheMap : UnorderedMap Key Nat := ∅

/-- A new cache. -/
def create (cacheSize : Nat) : AdaptSizeCache F where
  cacheSize := cacheSize
  stats := { currentSize := 2 * 8 + 4 * 8, cParam := ofNat (2 ^ 15) }

namespace AdaptSizeCache

/-- `exists`: the key is cached. -/
def isCached (s : AdaptSizeCache F) (key : Key) : Bool := (s.cacheMap.lookup key).isSome

def metadataUpdate (platform : Platform F) (s : AdaptSizeCache F) (key : Key) (value : Value) :
    Option (AdaptSizeCache F) :=
  (s.stats.metadataUpdate platform s.cacheSize key (objectSize key value)).map fun stats =>
    { s with stats := stats }

/-- A hit moves the object to the head of the list and is counted; a miss is not. -/
def lookup (platform : Platform F) (s : AdaptSizeCache F) (key : Key) :
    Option (AdaptSizeCache F × Option Value) :=
  match s.cacheMap.lookup key with
  | none => some (s, none)
  | some it => do
      let item ← s.cacheList.get it
      require (item.1 = key)
      let s' ← ({ s with cacheList := s.cacheList.moveToFront it }).metadataUpdate platform key
        item.2
      return (s', some item.2)

/-- The object of a cached key replaced by a new one at the head of the list. -/
def replaceObject (s : AdaptSizeCache F) (key : Key) (value : Value) (it : Nat) :
    Option (AdaptSizeCache F) := do
  let item ← s.cacheList.get it
  require (item.1 = key)
  let stats ← s.stats.add (objectSize key value)
  return { s with
    stats := stats.sub (objectSize item.1 item.2)
    cacheList := (s.cacheList.pushFront (key, value)).erase it
    cacheMap := s.cacheMap.insert key s.cacheList.next }

/-- The access is counted also if the key is not cached. -/
def update (platform : Platform F) (s : AdaptSizeCache F) (key : Key) (value : Value) :
    Option (AdaptSizeCache F × Bool) :=
  match s.cacheMap.lookup key with
  | none => (s.metadataUpdate platform key value).map fun t => (t, false)
  | some it => do
      let s' ← s.replaceObject key value it
      (s'.metadataUpdate platform key value).map fun t => (t, true)

/-- A random number between `0` and `1` decides. -/
def needAdmit (s : AdaptSizeCache F) (roll : F) (key : Key) (value : Value) : Bool :=
  !s.isCached key &&
    lt roll (exp (-ofNat 1 * ofNat (objectSize key value) / s.stats.cParam))

/-- An object that is too large, or for which there is no room, ends the process. -/
def admitObject (s : AdaptSizeCache F) (key : Key) (value : Value) : Option (AdaptSizeCache F) := do
  require (s.isCached key = false)
  require (¬ objectSize key value ≥ s.cacheSize)
  require (¬ (s.stats.currentSize + objectSize key value) % uint64Limit > s.cacheSize)
  let stats ← s.stats.add (objectSize key value)
  let stats' ← stats.add (key.getKeyLength + 8)
  return { s with
    stats := stats'
    cacheList := s.cacheList.pushFront (key, value)
    cacheMap := s.cacheMap.insert key s.cacheList.next }

/-- The key of the oldest object. -/
def getVictimKey (s : AdaptSizeCache F) : Option Key := s.cacheList.back.map fun tail => tail.2.1

/-- Evict a key, if it is cached. -/
def evict (s : AdaptSizeCache F) (key : Key) : Option (AdaptSizeCache F × Option Value) :=
  match s.cacheMap.lookup key with
  | none => some (s, none)
  | some it => do
      let item ← s.cacheList.get it
      return ({ s with
        stats := (s.stats.sub (key.getKeyLength + 8)).sub (objectSize key item.2)
        cacheList := s.cacheList.erase it
        cacheMap := s.cacheMap.erase key }, some item.2)

def getSizeForCapacity (s : AdaptSizeCache F) : Nat := s.stats.currentSize

end AdaptSizeCache

/-- The operations of the cache. -/
inductive Action
  | lookup (key : Key)
  | update (key : Key) (value : Value)
  | admitObject (key : Key) (value : Value)
  | getVictimKey
  | evict (key : Key)
deriving DecidableEq

/-- What an operation returns. -/
inductive Output
  | value (value : Option Value)
  | flag (isCached : Bool)
  | victim (key : Option Key)
  | void
deriving DecidableEq

/-- One operation; `none` is a failed assertion, an invalid iterator, an overflow or an exit. -/
def step (platform : Platform F) (s : AdaptSizeCache F) :
    Action → Option (AdaptSizeCache F × Output)
  | .lookup key => (s.lookup platform key).map fun r => (r.1, .value r.2)
  | .update key value => (s.update platform key value).map fun r => (r.1, .flag r.2)
  | .admitObject key value => (s.admitObject key value).map fun t => (t, .void)
  | .getVictimKey => some (s, .victim s.getVictimKey)
  | .evict key => (s.evict key).map fun r => (r.1, .value r.2)

end Covered.Cache.Adaptsize
