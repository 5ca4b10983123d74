import Covered.Victim.WireFormat

/-!
# Syncset objects byte by byte

The two classes of victim synchronization as they are in memory: the bitmap is a byte that may have
any value, also that of a default-constructed object, and every method checks first what the source
checks first. `VictimCacheinfo` and `VictimSyncset` have bitmaps that are well formed by
construction; here nothing is promised about a bitmap, so what the setters, the compression and the
recovery make of it can be wrong.

The checks that walk a whole list are made if `isAssert` is set in the configuration.

`deserializeInto` reads into an existing object and leaves what is not sent as it was. The state of
an object that aborts is of no interest, so every method that can abort answers `none` then.
-/

set_option autoImplicit false

namespace Covered.Victim

open Common Cooperation Lib Lib.ByteStream Lib.Checked Lib.SingleFloat

/-- The byte has all bits of the mask. -/
def HasBits (bitmap mask : BitVec 8) : Prop := bitmap &&& mask = mask

instance (bitmap mask : BitVec 8) : Decidable (HasBits bitmap mask) :=
  inferInstanceAs (Decidable (_ = _))

/-! ## Cacheinfos -/

/-- An object of the class `VictimCacheinfo`. -/
structure CacheinfoObject where
  dedupBitmap : BitVec 8
  key : Key
  beaconEdgeidx : Option Nat
  objectSize : Nat
  localCachedPopularity : Popularity
  redirectedCachedPopularity : Popularity
  localReward : Reward
  redirectedCachedReward : Reward
deriving DecidableEq

namespace CacheinfoObject

def invalidBitmap : BitVec 8 := 0b11111111#8
def completeBitmap : BitVec 8 := 0b00000000#8
def dedupMask : BitVec 8 := 0b00000001#8
def staleBitmap : BitVec 8 := 0b00111111#8
def objectSizeDedupMask : BitVec 8 := 0b00000010#8 ||| dedupMask
def localCachedPopularityDedupMask : BitVec 8 := 0b00000100#8 ||| dedupMask
def redirectedCachedPopularityDedupMask : BitVec 8 := 0b00001000#8 ||| dedupMask
def localRewardDedupMask : BitVec 8 := 0b00010000#8 ||| dedupMask

/-- The default-constructed object. -/
def invalid : CacheinfoObject where
  dedupBitmap := invalidBitmap
  key := ⟨[]⟩
  beaconEdgeidx := none
  objectSize := 0
  localCachedPopularity := 0
  redirectedCachedPopularity := 0
  localReward := 0
  redirectedCachedReward := 0

/-- A complete object. The constructor without the last argument leaves that field as the memory
was. -/
def create (key : Key) (objectSize : Nat)
    (localCachedPopularity redirectedCachedPopularity : Popularity)
    (localReward redirectedCachedReward : Reward) : CacheinfoObject where
  dedupBitmap := completeBitmap
  key := key
  beaconEdgeidx := none
  objectSize := objectSize
  localCachedPopularity := localCachedPopularity
  redirectedCachedPopularity := redirectedCachedPopularity
  localReward := localReward
  redirectedCachedReward := redirectedCachedReward

/-- The answer of a method that rejects the bitmap of a default-constructed object. -/
def checked {α : Type} (v : CacheinfoObject) (answer : α) : Option α :=
  if v.dedupBitmap ≠ invalidBitmap then some answer else none

def isInvalid (v : CacheinfoObject) : Bool := v.dedupBitmap == invalidBitmap

def isComplete (v : CacheinfoObject) : Option Bool :=
  v.checked (v.dedupBitmap != staleBitmap &&
    decide (v.dedupBitmap &&& dedupMask = completeBitmap &&& dedupMask))

def isStale (v : CacheinfoObject) : Option Bool := v.checked (v.dedupBitmap == staleBitmap)

def isDeduped (v : CacheinfoObject) : Option Bool :=
  v.checked (v.dedupBitmap != staleBitmap && decide (HasBits v.dedupBitmap dedupMask))

def isFullyDeduped (v : CacheinfoObject) : Option Bool :=
  v.checked (v.dedupBitmap != staleBitmap && decide (HasBits v.dedupBitmap objectSizeDedupMask) &&
    decide (HasBits v.dedupBitmap localCachedPopularityDedupMask) &&
    decide (HasBits v.dedupBitmap redirectedCachedPopularityDedupMask) &&
    decide (HasBits v.dedupBitmap localRewardDedupMask))

def getKey (v : CacheinfoObject) : Option Key := v.checked v.key

def getBeaconEdgeidx (v : CacheinfoObject) : Option (Option Nat) := v.checked v.beaconEdgeidx

def setBeaconEdgeidx (v : CacheinfoObject) (beaconEdgeidx : Nat) : Option CacheinfoObject :=
  v.checked { v with beaconEdgeidx := some beaconEdgeidx }

/-- The value of a field that is not deduplicated. -/
def getField {α : Type} (v : CacheinfoObject) (mask : BitVec 8) (value : α) : Option (Option α) :=
  v.checked (if ¬ HasBits v.dedupBitmap mask then some value else none)

def getObjectSize (v : CacheinfoObject) : Option (Option Nat) :=
  v.getField objectSizeDedupMask v.objectSize

def getLocalCachedPopularity (v : CacheinfoObject) : Option (Option Popularity) :=
  v.getField localCachedPopularityDedupMask v.localCachedPopularity

def getRedirectedCachedPopularity (v : CacheinfoObject) : Option (Option Popularity) :=
  v.getField redirectedCachedPopularityDedupMask v.redirectedCachedPopularity

def getRedirectedCachedPopularityReward (v : CacheinfoObject) : Option (Option Reward) :=
  v.getField redirectedCachedPopularityDedupMask v.redirectedCachedReward

def getLocalReward (v : CacheinfoObject) : Option (Option Reward) :=
  v.getField localRewardDedupMask v.localReward

def markStale (v : CacheinfoObject) : Option CacheinfoObject :=
  v.checked { v with dedupBitmap := staleBitmap }

def dedupObjectSize (v : CacheinfoObject) : Option CacheinfoObject :=
  v.checked { v with
    dedupBitmap := v.dedupBitmap ||| objectSizeDedupMask
    objectSize := 0 }

def dedupLocalCachedPopularity (v : CacheinfoObject) : Option CacheinfoObject :=
  v.checked { v with
    dedupBitmap := v.dedupBitmap ||| localCachedPopularityDedupMask
    localCachedPopularity := 0 }

def dedupRedirectedCachedPopularity (v : CacheinfoObject) : Option CacheinfoObject :=
  v.checked { v with
    dedupBitmap := v.dedupBitmap ||| redirectedCachedPopularityDedupMask
    redirectedCachedPopularity := 0
    redirectedCachedReward := 0 }

def dedupLocalReward (v : CacheinfoObject) : Option CacheinfoObject :=
  v.checked { v with
    dedupBitmap := v.dedupBitmap ||| localRewardDedupMask
    localReward := 0 }

/-- Bytes of the fields that are not deduplicated. -/
def fieldsSize (v : CacheinfoObject) : Nat :=
  (if ¬ HasBits v.dedupBitmap objectSizeDedupMask then 4 else 0) +
    (if ¬ HasBits v.dedupBitmap localCachedPopularityDedupMask then 4 else 0) +
    (if ¬ HasBits v.dedupBitmap redirectedCachedPopularityDedupMask then 4 else 0) +
    (if ¬ HasBits v.dedupBitmap localRewardDedupMask then 4 else 0)

def getVictimCacheinfoPayloadSize (v : CacheinfoObject) : Option Nat :=
  v.checked (1 + v.key.getKeyPayloadSize + 4 + v.fieldsSize)

def getSizeForCapacity (v : CacheinfoObject) : Option Nat :=
  v.checked (1 + v.key.getKeyLength + v.fieldsSize)

/-! ### Bytes -/

section Bytes

variable {S : Type}

def serializeTo (sink : Sink S) (v : CacheinfoObject) : StateT S Option Unit := do
  ofOption (v.checked ())
  sink.put (littleEndian 1 v.dedupBitmap.toNat)
  v.key.serializeTo sink
  sink.put (littleEndian 4 (unsigned32 (VictimCacheinfo.beaconNumber v.beaconEdgeidx)))
  onlyIf (¬ HasBits v.dedupBitmap objectSizeDedupMask) (sink.put (littleEndian 4 v.objectSize))
  onlyIf (¬ HasBits v.dedupBitmap localCachedPopularityDedupMask)
    (sink.put (littleEndian 4 (toBits v.localCachedPopularity)))
  onlyIf (¬ HasBits v.dedupBitmap redirectedCachedPopularityDedupMask)
    (sink.put (littleEndian 4 (toBits v.redirectedCachedPopularity)))
  onlyIf (¬ HasBits v.dedupBitmap localRewardDedupMask)
    (sink.put (littleEndian 4 (toBits v.localReward)))

/-- The bitmap that was read, unless it is that of a default-constructed object. -/
def readBitmap (byte : Nat) : Option (BitVec 8) :=
  if BitVec.ofNat 8 byte ≠ invalidBitmap then some (BitVec.ofNat 8 byte) else none

def deserializeInto (source : Source S) (v : CacheinfoObject) :
    StateT S Option CacheinfoObject := do
  let byte ← source.getLittleEndian 1
  let bitmap ← ofOption (readBitmap byte)
  let key ← Key.deserializeFrom source
  let beaconEdgeidx ← source.getLittleEndian 4
  let objectSize ← optional (¬ HasBits bitmap objectSizeDedupMask) (source.getLittleEndian 4)
    v.objectSize
  let localCachedPopularity ← optional (¬ HasBits bitmap localCachedPopularityDedupMask)
    (getFloat source) v.localCachedPopularity
  let redirectedCachedPopularity ← optional (¬ HasBits bitmap redirectedCachedPopularityDedupMask)
    (getFloat source) v.redirectedCachedPopularity
  let localReward ← optional (¬ HasBits bitmap localRewardDedupMask) (getFloat source) v.localReward
  return {
    dedupBitmap := bitmap
    key := key
    beaconEdgeidx := VictimCacheinfo.beaconOfNumber (signed32 beaconEdgeidx)
    objectSize := objectSize
    localCachedPopularity := localCachedPopularity
    redirectedCachedPopularity := redirectedCachedPopularity
    localReward := localReward
    redirectedCachedReward := v.redirectedCachedReward }

/-- The fields are values of the types of the source. -/
structure InRange (v : CacheinfoObject) : Prop where
  beaconEdgeidx : ∀ edgeIdx, v.beaconEdgeidx = some edgeIdx → edgeIdx < 2 ^ 31
  objectSize : v.objectSize < 2 ^ 32
  localCachedPopularity : IsFloat v.localCachedPopularity
  redirectedCachedPopularity : IsFloat v.redirectedCachedPopularity
  localReward : IsFloat v.localReward

end Bytes

/-! ### Deduplication and recovery -/

/-- Drop a field that did not change. -/
def dedupIf (same : Prop) [Decidable same] (drop : CacheinfoObject → Option CacheinfoObject)
    (v : CacheinfoObject) : Option CacheinfoObject :=
  if same then drop v else some v

def dedup (current prev : CacheinfoObject) : Option CacheinfoObject := do
  let isCurrentComplete ← current.isComplete
  require (isCurrentComplete = true)
  let isPrevComplete ← prev.isComplete
  require (isPrevComplete = true)
  let v₁ ← dedupIf (current.objectSize = prev.objectSize) dedupObjectSize current
  let v₂ ← dedupIf (isApproxEqual current.localCachedPopularity prev.localCachedPopularity = true)
    dedupLocalCachedPopularity v₁
  let v₃ ← dedupIf
    (isApproxEqual current.redirectedCachedPopularity prev.redirectedCachedPopularity = true)
    dedupRedirectedCachedPopularity v₂
  let deduped ← dedupIf (isApproxEqual current.localReward prev.localReward = true)
    dedupLocalReward v₃
  let dedupedSize ← deduped.getVictimCacheinfoPayloadSize
  let currentSize ← current.getVictimCacheinfoPayloadSize
  return if dedupedSize < currentSize then deduped else current

def recover (compressed existing : CacheinfoObject) : Option CacheinfoObject := do
  let isDeduped ← compressed.isDeduped
  require (isDeduped = true)
  let isFullyDeduped ← compressed.isFullyDeduped
  require (isFullyDeduped = false)
  let isComplete ← existing.isComplete
  require (isComplete = true)
  let objectSize ← compressed.getObjectSize
  let localCachedPopularity ← compressed.getLocalCachedPopularity
  let redirectedCachedPopularity ← compressed.getRedirectedCachedPopularity
  let redirectedCachedReward ← compressed.getRedirectedCachedPopularityReward
  let localReward ← compressed.getLocalReward
  let complete : CacheinfoObject := { existing with
    objectSize := objectSize.getD existing.objectSize
    localCachedPopularity := localCachedPopularity.getD existing.localCachedPopularity
    redirectedCachedPopularity :=
      redirectedCachedPopularity.getD existing.redirectedCachedPopularity
    redirectedCachedReward := redirectedCachedReward.getD existing.redirectedCachedReward
    localReward := localReward.getD existing.localReward }
  let isRecovered ← complete.isComplete
  require (isRecovered = true)
  return complete

/-- Stable sort in ascending order of the rewards. -/
def sortByLocalRewards (victims : List CacheinfoObject) : List CacheinfoObject :=
  victims.insertionSort fun v w => v.localReward ≤ w.localReward

/-- The first victim with the given key; every key on the way is asked for. -/
def findVictimCacheinfoForKey (key : Key) :
    List CacheinfoObject → Option (Option CacheinfoObject)
  | [] => some none
  | v :: rest => do
      let victimKey ← v.getKey
      if victimKey = key then return some v else findVictimCacheinfoForKey key rest

end CacheinfoObject

/-! ## Syncsets -/

/-- An object of the class `VictimSyncset`. -/
structure SyncsetObject where
  compressedBitmap : BitVec 8
  seqnum : Nat
  isEnforceComplete : Bool
  cacheMarginBytes : Nat
  cacheMarginDeltaBytes : Int
  localSyncedVictims : List CacheinfoObject
  localBeaconedVictims : List (Key × DirinfoSet)

namespace SyncsetObject

def invalidBitmap : BitVec 8 := 0b11111111#8
def completeBitmap : BitVec 8 := 0b00000000#8
def compressMask : BitVec 8 := 0b00000001#8
def cacheMarginBytesDeltaMask : BitVec 8 := 0b00000010#8 ||| compressMask
def localSyncedVictimsDedupMask : BitVec 8 := 0b00000100#8 ||| compressMask
def localSyncedVictimsEmptyMask : BitVec 8 := 0b00001000#8
def localBeaconedVictimsDedupMask : BitVec 8 := 0b00010000#8 ||| compressMask
def localBeaconedVictimsEmptyMask : BitVec 8 := 0b00100000#8
def fullyCompressedBitmap : BitVec 8 := 0b00111111#8

/-- The default-constructed object. -/
def invalid : SyncsetObject where
  compressedBitmap := invalidBitmap
  seqnum := 0
  isEnforceComplete := false
  cacheMarginBytes := 0
  cacheMarginDeltaBytes := 0
  localSyncedVictims := []
  localBeaconedVictims := []

/-- The answer of a method that checks the validity first. -/
def checked {α : Type} (s : SyncsetObject) (answer : α) : Option α :=
  if s.compressedBitmap ≠ invalidBitmap then some answer else none

def isComplete (s : SyncsetObject) : Option Bool :=
  s.checked (decide (s.compressedBitmap &&& compressMask = completeBitmap &&& compressMask))

def isCompressed (s : SyncsetObject) : Option Bool :=
  s.checked (decide (HasBits s.compressedBitmap cacheMarginBytesDeltaMask) ||
    decide (HasBits s.compressedBitmap localSyncedVictimsDedupMask) ||
    decide (HasBits s.compressedBitmap localBeaconedVictimsDedupMask))

def getSeqnum (s : SyncsetObject) : Option Nat := s.checked s.seqnum

def setSeqnum (s : SyncsetObject) (seqnum : Nat) : Option SyncsetObject :=
  s.checked { s with seqnum := seqnum }

/-- The method `isEnforceComplete` of the source, of which the field has the name here. -/
def getEnforceComplete (s : SyncsetObject) : Option Bool := s.checked s.isEnforceComplete

def setEnforceComplete (s : SyncsetObject) (isEnforceComplete : Bool) : Option SyncsetObject :=
  s.checked { s with isEnforceComplete := isEnforceComplete }

/-! ### Checks of the lists -/

/-- Every cacheinfo of the list is complete. -/
def allCacheinfosComplete : List CacheinfoObject → Option Unit
  | [] => some ()
  | v :: rest => do
      let isComplete ← v.isComplete
      require (isComplete = true)
      allCacheinfosComplete rest

def assertAllCacheinfosComplete (isAssert : Bool) (victims : List CacheinfoObject) :
    Option Unit := do
  require (victims.length > 0)
  (if isAssert = true then allCacheinfosComplete victims else some ())

def assertAtLeastOneCacheinfoDeduped (victims : List CacheinfoObject) : Option Unit :=
  require (victims.length > 0)

def assertAllDirinfoSetsComplete (isAssert : Bool) (victims : List (Key × DirinfoSet)) :
    Option Unit := do
  require (victims.length > 0)
  (if isAssert = true then require (∀ pair ∈ victims, pair.2.isComplete = true) else some ())

def assertAtLeastOneDirinfoSetCompressed (victims : List (Key × DirinfoSet)) : Option Unit :=
  require (victims.length > 0)

/-! ### Parts -/

/-- The free bytes, or else their delta. -/
def getCacheMarginBytesOrDelta (s : SyncsetObject) : Option (Nat ⊕ Int) :=
  s.checked (if ¬ HasBits s.compressedBitmap cacheMarginBytesDeltaMask then .inl s.cacheMarginBytes
    else .inr s.cacheMarginDeltaBytes)

/-- The check of a list that is not marked as empty, by the form it is in. -/
def checkList (s : SyncsetObject) (dedupMask emptyMask : BitVec 8)
    (whenCompressed whenComplete : Option Unit) : Option Unit :=
  if HasBits s.compressedBitmap emptyMask then some ()
  else if HasBits s.compressedBitmap dedupMask then whenCompressed else whenComplete

/-- The check of the victims. -/
def checkLocalSyncedVictims (isAssert : Bool) (s : SyncsetObject) : Option Unit :=
  s.checkList localSyncedVictimsDedupMask localSyncedVictimsEmptyMask
    (assertAtLeastOneCacheinfoDeduped s.localSyncedVictims)
    (assertAllCacheinfosComplete isAssert s.localSyncedVictims)

/-- The check of the dirinfo sets. -/
def checkLocalBeaconedVictims (isAssert : Bool) (s : SyncsetObject) : Option Unit :=
  s.checkList localBeaconedVictimsDedupMask localBeaconedVictimsEmptyMask
    (assertAtLeastOneDirinfoSetCompressed s.localBeaconedVictims)
    (assertAllDirinfoSetsComplete isAssert s.localBeaconedVictims)

/-- A copy of the victims and whether the list is complete. -/
def getLocalSyncedVictims (isAssert : Bool) (s : SyncsetObject) :
    Option (List CacheinfoObject × Bool) := do
  s.checked ()
  s.checkLocalSyncedVictims isAssert
  return (if HasBits s.compressedBitmap localSyncedVictimsEmptyMask then []
    else s.localSyncedVictims, decide (¬ HasBits s.compressedBitmap localSyncedVictimsDedupMask))

/-- The list of victims itself, also if it is marked as empty. -/
def getLocalSyncedVictimsPtr (isAssert : Bool) (s : SyncsetObject) :
    Option (List CacheinfoObject × Bool) := do
  s.checked ()
  s.checkLocalSyncedVictims isAssert
  return (s.localSyncedVictims,
    decide (¬ HasBits s.compressedBitmap localSyncedVictimsDedupMask))

/-- A copy of the dirinfo sets and whether the list is complete. -/
def getLocalBeaconedVictims (isAssert : Bool) (s : SyncsetObject) :
    Option (List (Key × DirinfoSet) × Bool) := do
  s.checked ()
  s.checkLocalBeaconedVictims isAssert
  return (if HasBits s.compressedBitmap localBeaconedVictimsEmptyMask then []
    else s.localBeaconedVictims,
    decide (¬ HasBits s.compressedBitmap localBeaconedVictimsDedupMask))

/-- The list of dirinfo sets itself, also if it is marked as empty. -/
def getLocalBeaconedVictimsPtr (isAssert : Bool) (s : SyncsetObject) :
    Option (List (Key × DirinfoSet) × Bool) := do
  s.checked ()
  s.checkLocalBeaconedVictims isAssert
  return (s.localBeaconedVictims,
    decide (¬ HasBits s.compressedBitmap localBeaconedVictimsDedupMask))

/-- The object with the bit of a part removed, and the lowest bit with the last such bit. -/
def removeBits (mask : BitVec 8) (s : SyncsetObject) : Option SyncsetObject := do
  s.checked ()
  let removed : SyncsetObject :=
    { s with compressedBitmap := s.compressedBitmap &&& ~~~(mask &&& ~~~compressMask) }
  let isCompressed ← removed.isCompressed
  return if isCompressed = true then removed
    else { removed with compressedBitmap := removed.compressedBitmap &&& ~~~compressMask }

/-- The object with the bits of a part added. -/
def addBits (mask : BitVec 8) (s : SyncsetObject) : Option SyncsetObject :=
  s.checked { s with compressedBitmap := s.compressedBitmap ||| mask }

/-- The bitmap with a list marked as empty iff it has no elements. -/
def emptyBits {α : Type} (mask : BitVec 8) (l : List α) (bitmap : BitVec 8) : BitVec 8 :=
  if l.length = 0 then bitmap ||| mask else bitmap &&& ~~~mask

/-- A list that is not empty is checked. -/
def checkIfNonempty {α : Type} (l : List α) (check : List α → Option Unit) : Option Unit :=
  if l.length = 0 then some () else check l

def setCacheMarginBytes (s : SyncsetObject) (cacheMarginBytes : Nat) : Option SyncsetObject := do
  let t ← s.removeBits cacheMarginBytesDeltaMask
  return { t with
    cacheMarginBytes := cacheMarginBytes
    cacheMarginDeltaBytes := 0 }

/-- Replace the list of victims. -/
def storeLocalSyncedVictims (victims : List CacheinfoObject)
    (check : List CacheinfoObject → Option Unit) (s : SyncsetObject) : Option SyncsetObject := do
  checkIfNonempty victims check
  return { s with
    compressedBitmap := emptyBits localSyncedVictimsEmptyMask victims s.compressedBitmap
    localSyncedVictims := victims }

/-- Replace the list of dirinfo sets. -/
def storeLocalBeaconedVictims (victims : List (Key × DirinfoSet))
    (check : List (Key × DirinfoSet) → Option Unit) (s : SyncsetObject) :
    Option SyncsetObject := do
  checkIfNonempty victims check
  return { s with
    compressedBitmap := emptyBits localBeaconedVictimsEmptyMask victims s.compressedBitmap
    localBeaconedVictims := victims }

def setLocalSyncedVictims (isAssert : Bool) (s : SyncsetObject) (victims : List CacheinfoObject) :
    Option SyncsetObject := do
  let t ← s.removeBits localSyncedVictimsDedupMask
  t.storeLocalSyncedVictims victims (assertAllCacheinfosComplete isAssert)

/-- Append a dirinfo set to a complete syncset; the set is not checked. -/
def pushLocalBeaconedVictimForComplete (s : SyncsetObject) (key : Key) (dirinfoSet : DirinfoSet) :
    Option SyncsetObject := do
  s.checked ()
  let isComplete ← s.isComplete
  require (isComplete = true)
  return { s with
    compressedBitmap :=
      if s.localBeaconedVictims.length = 0 then
        s.compressedBitmap &&& ~~~localBeaconedVictimsEmptyMask
      else s.compressedBitmap
    localBeaconedVictims := s.localBeaconedVictims ++ [(key, dirinfoSet)] }

def setLocalBeaconedVictims (isAssert : Bool) (s : SyncsetObject)
    (victims : List (Key × DirinfoSet)) : Option SyncsetObject := do
  let t ← s.removeBits localBeaconedVictimsDedupMask
  t.storeLocalBeaconedVictims victims (assertAllDirinfoSetsComplete isAssert)

def setCacheMarginDeltaBytes (s : SyncsetObject) (cacheMarginDeltaBytes : Int) :
    Option SyncsetObject := do
  let t ← s.addBits cacheMarginBytesDeltaMask
  return { t with
    cacheMarginDeltaBytes := cacheMarginDeltaBytes
    cacheMarginBytes := 0 }

def setLocalSyncedVictimsForCompress (s : SyncsetObject) (victims : List CacheinfoObject) :
    Option SyncsetObject := do
  let t ← s.addBits localSyncedVictimsDedupMask
  t.storeLocalSyncedVictims victims assertAtLeastOneCacheinfoDeduped

def setLocalBeaconedVictimsForCompress (s : SyncsetObject) (victims : List (Key × DirinfoSet)) :
    Option SyncsetObject := do
  let t ← s.addBits localBeaconedVictimsDedupMask
  t.storeLocalBeaconedVictims victims assertAtLeastOneDirinfoSetCompressed

/-! ### Construction -/

/-- A complete syncset without victims. -/
def createEmpty (seqnum : Nat) (isEnforceComplete : Bool) : SyncsetObject where
  compressedBitmap :=
    completeBitmap ||| localSyncedVictimsEmptyMask ||| localBeaconedVictimsEmptyMask
  seqnum := seqnum
  isEnforceComplete := isEnforceComplete
  cacheMarginBytes := 0
  cacheMarginDeltaBytes := 0
  localSyncedVictims := []
  localBeaconedVictims := []

/-- A complete syncset with the given parts. -/
def create (isAssert : Bool) (seqnum : Nat) (isEnforceComplete : Bool) (cacheMarginBytes : Nat)
    (localSyncedVictims : List CacheinfoObject)
    (localBeaconedVictims : List (Key × DirinfoSet)) : Option SyncsetObject := do
  checkIfNonempty localSyncedVictims (assertAllCacheinfosComplete isAssert)
  checkIfNonempty localBeaconedVictims (assertAllDirinfoSetsComplete isAssert)
  return {
    compressedBitmap :=
      let bitmap := if localSyncedVictims.length = 0 then
        completeBitmap ||| localSyncedVictimsEmptyMask else completeBitmap
      if localBeaconedVictims.length = 0 then bitmap ||| localBeaconedVictimsEmptyMask else bitmap
    seqnum := seqnum
    isEnforceComplete := isEnforceComplete
    cacheMarginBytes := cacheMarginBytes
    cacheMarginDeltaBytes := 0
    localSyncedVictims := localSyncedVictims
    localBeaconedVictims := localBeaconedVictims }

/-- A syncset that says that nothing changed. -/
def getFullCompressedVictimSyncset (seqnum : Nat) (isEnforceComplete : Bool) : SyncsetObject where
  compressedBitmap := fullyCompressedBitmap
  seqnum := seqnum
  isEnforceComplete := isEnforceComplete
  cacheMarginBytes := 0
  cacheMarginDeltaBytes := 0
  localSyncedVictims := []
  localBeaconedVictims := []

/-! ### Sizes -/

/-- The sum of the sizes of the cacheinfos. -/
def totalVictimSize (size : CacheinfoObject → Option Nat) : List CacheinfoObject → Option Nat
  | [] => some 0
  | v :: rest => do
      let victimSize ← size v
      let restSize ← totalVictimSize size rest
      return victimSize + restSize

/-- The size of a list that is not marked as empty; it must not be empty then. -/
def listSize {α : Type} (s : SyncsetObject) (mask : BitVec 8) (l : List α) (size : Option Nat) :
    Option Nat :=
  if HasBits s.compressedBitmap mask then some 0
  else do
    require (l.length > 0)
    size

def marginSize (s : SyncsetObject) : Nat :=
  if ¬ HasBits s.compressedBitmap cacheMarginBytesDeltaMask then 8 else 4

def getVictimSyncsetPayloadSize (s : SyncsetObject) : Option Nat := do
  let syncedSize ← s.listSize localSyncedVictimsEmptyMask s.localSyncedVictims
    ((totalVictimSize CacheinfoObject.getVictimCacheinfoPayloadSize s.localSyncedVictims).map
      (4 + ·))
  let beaconedSize ← s.listSize localBeaconedVictimsEmptyMask s.localBeaconedVictims
    (some (4 + (s.localBeaconedVictims.map fun pair =>
      pair.1.getKeyPayloadSize + pair.2.getDirinfoSetPayloadSize).sum))
  return 1 + 8 + 1 + s.marginSize + syncedSize + beaconedSize

def getSizeForCapacity (s : SyncsetObject) : Option Nat := do
  let syncedSize ← s.listSize localSyncedVictimsEmptyMask s.localSyncedVictims
    (totalVictimSize CacheinfoObject.getSizeForCapacity s.localSyncedVictims)
  let beaconedSize ← s.listSize localBeaconedVictimsEmptyMask s.localBeaconedVictims
    (some (s.localBeaconedVictims.map fun pair =>
      pair.1.getKeyPayloadSize + pair.2.getSizeForCapacity).sum)
  return 1 + 8 + 1 + s.marginSize + syncedSize + beaconedSize

/-! ### Bytes -/

section Bytes

variable {S : Type}

def serializeTo (sink : Sink S) (s : SyncsetObject) : StateT S Option Unit := do
  ofOption (s.checked ())
  sink.put (littleEndian 1 s.compressedBitmap.toNat)
  sink.put (littleEndian 8 s.seqnum)
  sink.put (littleEndian 1 s.isEnforceComplete.toNat)
  (if ¬ HasBits s.compressedBitmap cacheMarginBytesDeltaMask then
    sink.put (littleEndian 8 s.cacheMarginBytes)
  else sink.put (littleEndian 4 (unsigned32 s.cacheMarginDeltaBytes)))
  onlyIf (¬ HasBits s.compressedBitmap localSyncedVictimsEmptyMask) (do
    sink.put (littleEndian 4 s.localSyncedVictims.length)
    writeMany (CacheinfoObject.serializeTo sink) s.localSyncedVictims)
  onlyIf (¬ HasBits s.compressedBitmap localBeaconedVictimsEmptyMask) (do
    sink.put (littleEndian 4 s.localBeaconedVictims.length)
    writeMany (fun pair => do
      pair.1.serializeTo sink
      pair.2.serializeTo sink) s.localBeaconedVictims)

/-- The bitmap that was read, unless it is that of a default-constructed object. -/
def readBitmap (byte : Nat) : Option (BitVec 8) :=
  if BitVec.ofNat 8 byte ≠ invalidBitmap then some (BitVec.ofNat 8 byte) else none

/-- The free bytes or their delta; the other one stays as it was. -/
def deserializeCacheMarginInto (source : Source S) (bitmap : BitVec 8) (s : SyncsetObject) :
    StateT S Option (Nat × Int) :=
  if ¬ HasBits bitmap cacheMarginBytesDeltaMask then do
    let cacheMarginBytes ← source.getLittleEndian 8
    return (cacheMarginBytes, s.cacheMarginDeltaBytes)
  else do
    let cacheMarginDeltaBytes ← source.getLittleEndian 4
    return (s.cacheMarginBytes, signed32 cacheMarginDeltaBytes)

def deserializeVictim (source : Source S) : StateT S Option CacheinfoObject := do
  let v ← CacheinfoObject.deserializeInto source .invalid
  ofOption (if v.isInvalid = false then some v else none)

def deserializeLocalSyncedVictims (source : Source S) :
    StateT S Option (List CacheinfoObject) := do
  let localSyncedVictimsSize ← source.getLittleEndian 4
  readMany (deserializeVictim source) localSyncedVictimsSize

/-- Read into an object; a list that is not sent stays as it was. -/
def deserializeInto (source : Source S) (s : SyncsetObject) : StateT S Option SyncsetObject := do
  let byte ← source.getLittleEndian 1
  let bitmap ← ofOption (readBitmap byte)
  let seqnum ← source.getLittleEndian 8
  let isEnforceComplete ← source.getLittleEndian 1
  let margin ← deserializeCacheMarginInto source bitmap s
  let localSyncedVictims ← optional (¬ HasBits bitmap localSyncedVictimsEmptyMask)
    (deserializeLocalSyncedVictims source) s.localSyncedVictims
  let localBeaconedVictims ← optional (¬ HasBits bitmap localBeaconedVictimsEmptyMask)
    (VictimSyncset.deserializeLocalBeaconedVictims source) s.localBeaconedVictims
  return {
    compressedBitmap := bitmap
    seqnum := seqnum
    isEnforceComplete := isEnforceComplete != 0
    cacheMarginBytes := margin.1
    cacheMarginDeltaBytes := margin.2
    localSyncedVictims := localSyncedVictims
    localBeaconedVictims := localBeaconedVictims }

/-- The fields are values of the types of the source. -/
structure InRange (s : SyncsetObject) : Prop where
  seqnum : s.seqnum < 2 ^ 64
  cacheMarginBytes : s.cacheMarginBytes < 2 ^ 64
  cacheMarginDeltaBytes : -2 ^ 31 ≤ s.cacheMarginDeltaBytes ∧ s.cacheMarginDeltaBytes < 2 ^ 31
  victims : ∀ v ∈ s.localSyncedVictims, v.InRange
  dirinfos : ∀ pair ∈ s.localBeaconedVictims, pair.2.InRange

end Bytes

/-! ### Compression -/

section Compression

variable (isAssert : Bool)

/-- The free bytes as a delta, if it is in range. -/
def compressCacheMarginBytes (s current prev : SyncsetObject) : Option SyncsetObject :=
  match VictimSyncset.cacheMarginDelta current.cacheMarginBytes prev.cacheMarginBytes with
  | some delta => s.setCacheMarginDeltaBytes delta
  | none => some s

/-- The message about a current victim, given the previous cacheinfo of its key. -/
def messageAbout (v : CacheinfoObject) : Option CacheinfoObject → Option (Option CacheinfoObject)
  | none => do
      let isComplete ← v.isComplete
      require (isComplete = true)
      return some v
  | some p => do
      let d ← CacheinfoObject.dedup v p
      let isFullyDeduped ← d.isFullyDeduped
      return if isFullyDeduped = true then none else some d

def compressVictim (prev : List CacheinfoObject) (v : CacheinfoObject) :
    Option (Option CacheinfoObject) := do
  let key ← v.getKey
  let found ← CacheinfoObject.findVictimCacheinfoForKey key prev
  messageAbout v found

/-- The message about a previous victim, given the current cacheinfo of its key. -/
def staleMessageAbout (p : CacheinfoObject) :
    Option CacheinfoObject → Option (Option CacheinfoObject)
  | none => p.markStale.map some
  | some _ => some none

def staleVictim (current : List CacheinfoObject) (p : CacheinfoObject) :
    Option (Option CacheinfoObject) := do
  let key ← p.getKey
  let found ← CacheinfoObject.findVictimCacheinfoForKey key current
  staleMessageAbout p found

def compressLocalSyncedVictims (s current prev : SyncsetObject) : Option SyncsetObject := do
  let currentVictims ← current.getLocalSyncedVictimsPtr isAssert
  require (currentVictims.2 = true)
  let prevVictims ← prev.getLocalSyncedVictimsPtr isAssert
  require (prevVictims.2 = true)
  let messages ← KeyedList.collect (compressVictim prevVictims.1) currentVictims.1
  let stale ← KeyedList.collect (staleVictim currentVictims.1) prevVictims.1
  let currentSize ←
    totalVictimSize CacheinfoObject.getVictimCacheinfoPayloadSize currentVictims.1
  let finalSize ←
    totalVictimSize CacheinfoObject.getVictimCacheinfoPayloadSize (messages ++ stale)
  (if currentSize ≤ finalSize then some s
    else s.setLocalSyncedVictimsForCompress (messages ++ stale))

def compressLocalBeaconedVictims (s current prev : SyncsetObject) : Option SyncsetObject := do
  let currentVictims ← current.getLocalBeaconedVictimsPtr isAssert
  require (currentVictims.2 = true)
  let prevVictims ← prev.getLocalBeaconedVictimsPtr isAssert
  require (prevVictims.2 = true)
  let messages ← VictimSyncset.compressDirinfos prevVictims.1 currentVictims.1
  (if VictimSyncset.totalDirinfoSize currentVictims.1 ≤ VictimSyncset.totalDirinfoSize messages
    then some s
    else s.setLocalBeaconedVictimsForCompress messages)

def compress (current prev : SyncsetObject) : Option SyncsetObject := do
  let isCurrentComplete ← current.isComplete
  require (isCurrentComplete = true)
  let isPrevComplete ← prev.isComplete
  require (isPrevComplete = true)
  let currentSeqnum ← current.getSeqnum
  let prevSeqnum ← prev.getSeqnum
  let next ← uint64Add prevSeqnum 1
  require (currentSeqnum = next)
  let s₁ ← compressCacheMarginBytes current current prev
  let s₂ ← compressLocalSyncedVictims isAssert s₁ current prev
  let s₃ ← compressLocalBeaconedVictims isAssert s₂ current prev
  let compressedSize ← s₃.getVictimSyncsetPayloadSize
  let currentSize ← current.getVictimSyncsetPayloadSize
  return if compressedSize < currentSize then s₃ else current

/-! ### Recovery -/

/-- The free bytes or their delta applied to the existing ones. -/
def recoveredCacheMarginBytes (s existing : SyncsetObject) : Nat ⊕ Int → Option SyncsetObject
  | .inl _ => some s
  | .inr delta => do
      let existingMargin ← existing.getCacheMarginBytesOrDelta
      let existingBytes ← existingMargin.getLeft?
      let bytes ← VictimSyncset.applyCacheMarginDelta existingBytes delta
      s.setCacheMarginBytes bytes

def recoverCacheMarginBytes (s compressed existing : SyncsetObject) : Option SyncsetObject := do
  let margin ← compressed.getCacheMarginBytesOrDelta
  recoveredCacheMarginBytes s existing margin

/-- A message about a victim applied to the known victims, given the known cacheinfo of its key and
what kind of message it is. -/
def applyMessage (victims : List CacheinfoObject) (message : CacheinfoObject)
    (isComplete isStale isFullyDeduped : Bool) :
    Option CacheinfoObject → Option (List CacheinfoObject)
  | none =>
      if isComplete = true then some (victims ++ [message])
      else if isStale = true then some victims
      else do
        require (isFullyDeduped = false)
        return victims
  | some existing =>
      if isComplete = true then
        some (KeyedList.replace CacheinfoObject.key message.key message victims)
      else if isStale = true then
        some (KeyedList.erase CacheinfoObject.key message.key victims)
      else do
        require (isFullyDeduped = false)
        let recovered ← CacheinfoObject.recover message existing
        return KeyedList.replace CacheinfoObject.key message.key recovered victims

def applyVictim (victims : List CacheinfoObject) (message : CacheinfoObject) :
    Option (List CacheinfoObject) := do
  let key ← message.getKey
  let found ← CacheinfoObject.findVictimCacheinfoForKey key victims
  let isComplete ← message.isComplete
  let isStale ← message.isStale
  let isFullyDeduped ← message.isFullyDeduped
  applyMessage victims message isComplete isStale isFullyDeduped found

def recoverLocalSyncedVictims (s compressed existing : SyncsetObject) : Option SyncsetObject := do
  let messages ← compressed.getLocalSyncedVictimsPtr isAssert
  (if messages.2 = true then some s
  else do
    let existingVictims ← existing.getLocalSyncedVictims isAssert
    require (existingVictims.2 = true)
    let victims ← KeyedList.applyAll applyVictim existingVictims.1 messages.1
    s.setLocalSyncedVictims isAssert (CacheinfoObject.sortByLocalRewards victims))

def recoverLocalBeaconedVictims (s compressed existing : SyncsetObject) :
    Option SyncsetObject := do
  let messages ← compressed.getLocalBeaconedVictimsPtr isAssert
  (if messages.2 = true then some s
  else do
    let existingDirinfos ← existing.getLocalBeaconedVictims isAssert
    require (existingDirinfos.2 = true)
    let dirinfos ← VictimSyncset.applyDirinfos existingDirinfos.1 messages.1
    s.setLocalBeaconedVictims isAssert dirinfos)

def recover (compressed existing : SyncsetObject) : Option SyncsetObject := do
  let isCompressed ← compressed.isCompressed
  require (isCompressed = true)
  let isExistingComplete ← existing.isComplete
  require (isExistingComplete = true)
  let compressedSeqnum ← compressed.getSeqnum
  let existingSeqnum ← existing.getSeqnum
  let next ← uint64Add existingSeqnum 1
  require (compressedSeqnum = next)
  let s₁ ← recoverCacheMarginBytes compressed compressed existing
  let s₂ ← recoverLocalSyncedVictims isAssert s₁ compressed existing
  let s₃ ← recoverLocalBeaconedVictims isAssert s₂ compressed existing
  let isComplete ← s₃.isComplete
  require (isComplete = true)
  let seqnum ← s₃.getSeqnum
  require (seqnum = compressedSeqnum)
  let isEnforceComplete ← s₃.getEnforceComplete
  let isCompressedEnforceComplete ← compressed.getEnforceComplete
  require (isEnforceComplete = isCompressedEnforceComplete)
  return s₃

end Compression

end SyncsetObject

end Covered.Victim
