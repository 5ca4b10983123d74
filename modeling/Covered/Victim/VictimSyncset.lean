import Covered.Cooperation.DirinfoSet
import Covered.Victim.VictimCacheinfo

/-!
# Victim syncsets and their delta compression

A victim syncset is what an edge tells another one about its victims: the free bytes of its cache,
its least rewarding objects (local synced victims) and the directory infos of the victims for which
it is the beacon (local beaconed victims). Each of the three parts is complete or compressed against
the previous syncset; the bitmap says which. A syncset is complete if all of its parts are.

`compress` compresses each part by itself and falls back to the complete syncset if that is not
larger. `recover` rebuilds the current syncset from a compressed one and the previous one; it is
called for compressed syncsets only.

The bitmap has six bits here; the upper two bits of the source's byte are set only in the bitmap of
a default-constructed syncset, which is replaced before it is used. The checks that every member of
a complete part is complete are off in the shipped configuration and are left out of the setters.
-/

set_option autoImplicit false

namespace Covered.Victim

open Common Cooperation Lib Lib.Checked Lib.SortBy

/-- The three parts of a syncset. -/
inductive SyncsetPart
  | cacheMarginBytes
  | localSyncedVictims
  | localBeaconedVictims
deriving DecidableEq

namespace VictimSyncset

def completeBitmap : BitVec 6 := 0b000000#6
def compressMask : BitVec 6 := 0b000001#6
def cacheMarginBytesDeltaMask : BitVec 6 := 0b000010#6 ||| compressMask
def localSyncedVictimsDedupMask : BitVec 6 := 0b000100#6 ||| compressMask
def localSyncedVictimsEmptyMask : BitVec 6 := 0b001000#6
def localBeaconedVictimsDedupMask : BitVec 6 := 0b010000#6 ||| compressMask
def localBeaconedVictimsEmptyMask : BitVec 6 := 0b100000#6

/-- The mask of a compressed part. -/
def compressedMask : SyncsetPart → BitVec 6
  | .cacheMarginBytes => cacheMarginBytesDeltaMask
  | .localSyncedVictims => localSyncedVictimsDedupMask
  | .localBeaconedVictims => localBeaconedVictimsDedupMask

/-- The bitmap has all bits of the mask. -/
def Has (bitmap mask : BitVec 6) : Prop := bitmap &&& mask = mask

instance (bitmap mask : BitVec 6) : Decidable (Has bitmap mask) :=
  inferInstanceAs (Decidable (_ = _))

/-- The part is compressed. -/
def HasPart (bitmap : BitVec 6) (part : SyncsetPart) : Prop := Has bitmap (compressedMask part)

instance (bitmap : BitVec 6) (part : SyncsetPart) : Decidable (HasPart bitmap part) :=
  inferInstanceAs (Decidable (_ = _))

/-- Some part is compressed. -/
def isCompressedBitmap (bitmap : BitVec 6) : Bool :=
  decide (HasPart bitmap .cacheMarginBytes) || decide (HasPart bitmap .localSyncedVictims) ||
    decide (HasPart bitmap .localBeaconedVictims)

/-- The lowest bit is set iff some part is marked as compressed. -/
def LegalBitmap (bitmap : BitVec 6) : Prop :=
  Has bitmap compressMask ↔ bitmap &&& 0b010110#6 ≠ 0

instance (bitmap : BitVec 6) : Decidable (LegalBitmap bitmap) :=
  inferInstanceAs (Decidable (_ ↔ _))

/-- The bitmap with a part marked as compressed. -/
def markCompressed (part : SyncsetPart) (bitmap : BitVec 6) : BitVec 6 :=
  bitmap ||| compressedMask part

/-- The bitmap with a part marked as complete; the lowest bit goes with the last compressed part. -/
def markComplete (part : SyncsetPart) (bitmap : BitVec 6) : BitVec 6 :=
  let removed := bitmap &&& ~~~(compressedMask part &&& ~~~compressMask)
  if isCompressedBitmap removed then removed else removed &&& ~~~compressMask

/-- The bitmap with a list marked as empty or not. -/
def markEmpty (mask : BitVec 6) (isEmpty : Bool) (bitmap : BitVec 6) : BitVec 6 :=
  if isEmpty then bitmap ||| mask else bitmap &&& ~~~mask

end VictimSyncset

open VictimSyncset in
/-- Complete or compressed victim information of one edge for another. A list is marked as empty iff
it is, so the source's assertions on the sizes of the lists hold by construction. -/
structure VictimSyncset where
  compressedBitmap : BitVec 6
  seqnum : Nat
  isEnforceComplete : Bool
  cacheMarginBytes : Nat
  cacheMarginDeltaBytes : Int
  localSyncedVictims : List VictimCacheinfo
  localBeaconedVictims : List (Key × DirinfoSet)
  bitmap_wf : LegalBitmap compressedBitmap
  synced_empty : Has compressedBitmap localSyncedVictimsEmptyMask ↔ localSyncedVictims = []
  beaconed_empty : Has compressedBitmap localBeaconedVictimsEmptyMask ↔ localBeaconedVictims = []

namespace VictimSyncset

/-! ## Bits -/

theorem legal_mark (part : SyncsetPart) : ∀ bitmap : BitVec 6, LegalBitmap bitmap →
    LegalBitmap (markCompressed part bitmap) ∧ LegalBitmap (markComplete part bitmap) := by
  cases part <;> decide +kernel

theorem empty_mark (part : SyncsetPart) : ∀ bitmap : BitVec 6,
    (Has (markCompressed part bitmap) localSyncedVictimsEmptyMask ↔
      Has bitmap localSyncedVictimsEmptyMask) ∧
    (Has (markCompressed part bitmap) localBeaconedVictimsEmptyMask ↔
      Has bitmap localBeaconedVictimsEmptyMask) ∧
    (Has (markComplete part bitmap) localSyncedVictimsEmptyMask ↔
      Has bitmap localSyncedVictimsEmptyMask) ∧
    (Has (markComplete part bitmap) localBeaconedVictimsEmptyMask ↔
      Has bitmap localBeaconedVictimsEmptyMask) := by
  cases part <;> decide +kernel

theorem markEmpty_bits : ∀ (isEmpty : Bool) (bitmap : BitVec 6),
    (Has (markEmpty localSyncedVictimsEmptyMask isEmpty bitmap) localSyncedVictimsEmptyMask ↔
      isEmpty = true) ∧
    (Has (markEmpty localSyncedVictimsEmptyMask isEmpty bitmap) localBeaconedVictimsEmptyMask ↔
      Has bitmap localBeaconedVictimsEmptyMask) ∧
    (Has (markEmpty localBeaconedVictimsEmptyMask isEmpty bitmap) localBeaconedVictimsEmptyMask ↔
      isEmpty = true) ∧
    (Has (markEmpty localBeaconedVictimsEmptyMask isEmpty bitmap) localSyncedVictimsEmptyMask ↔
      Has bitmap localSyncedVictimsEmptyMask) := by
  decide +kernel

theorem legal_markEmpty : ∀ (isEmpty : Bool) (bitmap : BitVec 6),
    (LegalBitmap (markEmpty localSyncedVictimsEmptyMask isEmpty bitmap) ↔ LegalBitmap bitmap) ∧
    (LegalBitmap (markEmpty localBeaconedVictimsEmptyMask isEmpty bitmap) ↔
      LegalBitmap bitmap) := by
  decide +kernel

/-! ## Construction -/

/-- The complete syncset with the given parts. -/
def create (seqnum : Nat) (isEnforceComplete : Bool) (cacheMarginBytes : Nat)
    (localSyncedVictims : List VictimCacheinfo)
    (localBeaconedVictims : List (Key × DirinfoSet)) : VictimSyncset where
  compressedBitmap :=
    markEmpty localBeaconedVictimsEmptyMask localBeaconedVictims.isEmpty
      (markEmpty localSyncedVictimsEmptyMask localSyncedVictims.isEmpty completeBitmap)
  seqnum := seqnum
  isEnforceComplete := isEnforceComplete
  cacheMarginBytes := cacheMarginBytes
  cacheMarginDeltaBytes := 0
  localSyncedVictims := localSyncedVictims
  localBeaconedVictims := localBeaconedVictims
  bitmap_wf := by
    rw [(legal_markEmpty _ _).2, (legal_markEmpty _ _).1]
    decide
  synced_empty := by
    rw [(markEmpty_bits _ _).2.2.2, (markEmpty_bits _ _).1, List.isEmpty_iff]
  beaconed_empty := by
    rw [(markEmpty_bits _ _).2.2.1, List.isEmpty_iff]

/-- The complete syncset without any victim. -/
def createEmpty (seqnum : Nat) (isEnforceComplete : Bool) : VictimSyncset :=
  create seqnum isEnforceComplete 0 [] []

def isComplete (s : VictimSyncset) : Bool :=
  decide (s.compressedBitmap &&& compressMask = completeBitmap &&& compressMask)

def isCompressed (s : VictimSyncset) : Bool := isCompressedBitmap s.compressedBitmap

def setSeqnum (s : VictimSyncset) (seqnum : Nat) : VictimSyncset := { s with seqnum := seqnum }

def setEnforceComplete (s : VictimSyncset) (isEnforceComplete : Bool) : VictimSyncset :=
  { s with isEnforceComplete := isEnforceComplete }

/-- The free bytes, or else their delta. -/
def getCacheMarginBytesOrDelta (s : VictimSyncset) : Nat ⊕ Int :=
  if HasPart s.compressedBitmap .cacheMarginBytes then .inr s.cacheMarginDeltaBytes
  else .inl s.cacheMarginBytes

/-- The victims and whether the list is complete. -/
def getLocalSyncedVictims (s : VictimSyncset) : List VictimCacheinfo × Bool :=
  (s.localSyncedVictims, decide (¬ HasPart s.compressedBitmap .localSyncedVictims))

/-- The dirinfo sets and whether the list is complete. -/
def getLocalBeaconedVictims (s : VictimSyncset) : List (Key × DirinfoSet) × Bool :=
  (s.localBeaconedVictims, decide (¬ HasPart s.compressedBitmap .localBeaconedVictims))

/-! ## Complete parts -/

def setCacheMarginBytes (s : VictimSyncset) (cacheMarginBytes : Nat) : VictimSyncset :=
  { s with
    compressedBitmap := markComplete .cacheMarginBytes s.compressedBitmap
    cacheMarginBytes := cacheMarginBytes
    cacheMarginDeltaBytes := 0
    bitmap_wf := (legal_mark _ _ s.bitmap_wf).2
    synced_empty := (empty_mark _ _).2.2.1.trans s.synced_empty
    beaconed_empty := (empty_mark _ _).2.2.2.trans s.beaconed_empty }

def setLocalSyncedVictims (s : VictimSyncset) (victims : List VictimCacheinfo) : VictimSyncset :=
  { s with
    compressedBitmap := markEmpty localSyncedVictimsEmptyMask victims.isEmpty
      (markComplete .localSyncedVictims s.compressedBitmap)
    localSyncedVictims := victims
    bitmap_wf := (legal_markEmpty _ _).1.2 (legal_mark _ _ s.bitmap_wf).2
    synced_empty := (markEmpty_bits _ _).1.trans List.isEmpty_iff
    beaconed_empty :=
      (markEmpty_bits _ _).2.1.trans ((empty_mark _ _).2.2.2.trans s.beaconed_empty) }

/-- Append a dirinfo set to a complete syncset. -/
def pushLocalBeaconedVictimForComplete (s : VictimSyncset) (key : Key) (dirinfoSet : DirinfoSet) :
    Option VictimSyncset := do
  require (s.isComplete = true)
  return { s with
    compressedBitmap := markEmpty localBeaconedVictimsEmptyMask false s.compressedBitmap
    localBeaconedVictims := s.localBeaconedVictims ++ [(key, dirinfoSet)]
    bitmap_wf := (legal_markEmpty _ _).2.2 s.bitmap_wf
    synced_empty := (markEmpty_bits _ _).2.2.2.trans s.synced_empty
    beaconed_empty := by simp [(markEmpty_bits _ _).2.2.1] }

def setLocalBeaconedVictims (s : VictimSyncset) (victims : List (Key × DirinfoSet)) :
    VictimSyncset :=
  { s with
    compressedBitmap := markEmpty localBeaconedVictimsEmptyMask victims.isEmpty
      (markComplete .localBeaconedVictims s.compressedBitmap)
    localBeaconedVictims := victims
    bitmap_wf := (legal_markEmpty _ _).2.2 (legal_mark _ _ s.bitmap_wf).2
    synced_empty :=
      (markEmpty_bits _ _).2.2.2.trans ((empty_mark _ _).2.2.1.trans s.synced_empty)
    beaconed_empty := (markEmpty_bits _ _).2.2.1.trans List.isEmpty_iff }

/-! ## Compressed parts -/

def setCacheMarginDeltaBytes (s : VictimSyncset) (cacheMarginDeltaBytes : Int) : VictimSyncset :=
  { s with
    compressedBitmap := markCompressed .cacheMarginBytes s.compressedBitmap
    cacheMarginDeltaBytes := cacheMarginDeltaBytes
    cacheMarginBytes := 0
    bitmap_wf := (legal_mark _ _ s.bitmap_wf).1
    synced_empty := (empty_mark _ _).1.trans s.synced_empty
    beaconed_empty := (empty_mark _ _).2.1.trans s.beaconed_empty }

def setLocalSyncedVictimsForCompress (s : VictimSyncset) (victims : List VictimCacheinfo) :
    VictimSyncset :=
  { s with
    compressedBitmap := markEmpty localSyncedVictimsEmptyMask victims.isEmpty
      (markCompressed .localSyncedVictims s.compressedBitmap)
    localSyncedVictims := victims
    bitmap_wf := (legal_markEmpty _ _).1.2 (legal_mark _ _ s.bitmap_wf).1
    synced_empty := (markEmpty_bits _ _).1.trans List.isEmpty_iff
    beaconed_empty := (markEmpty_bits _ _).2.1.trans ((empty_mark _ _).2.1.trans s.beaconed_empty) }

def setLocalBeaconedVictimsForCompress (s : VictimSyncset) (victims : List (Key × DirinfoSet)) :
    VictimSyncset :=
  { s with
    compressedBitmap := markEmpty localBeaconedVictimsEmptyMask victims.isEmpty
      (markCompressed .localBeaconedVictims s.compressedBitmap)
    localBeaconedVictims := victims
    bitmap_wf := (legal_markEmpty _ _).2.2 (legal_mark _ _ s.bitmap_wf).1
    synced_empty := (markEmpty_bits _ _).2.2.2.trans ((empty_mark _ _).1.trans s.synced_empty)
    beaconed_empty := (markEmpty_bits _ _).2.2.1.trans List.isEmpty_iff }

/-! ## Sizes -/

/-- Bytes of a list in a message: nothing for an empty list. -/
def listPayloadSize {α : Type} (payloadSize : α → Nat) (l : List α) : Nat :=
  if l = [] then 0 else 4 + (l.map payloadSize).sum

def getVictimSyncsetPayloadSize (s : VictimSyncset) : Nat :=
  1 + 8 + 1 + (if HasPart s.compressedBitmap .cacheMarginBytes then 4 else 8) +
    listPayloadSize VictimCacheinfo.getVictimCacheinfoPayloadSize s.localSyncedVictims +
    listPayloadSize (fun pair => pair.1.getKeyPayloadSize + pair.2.getDirinfoSetPayloadSize)
      s.localBeaconedVictims

/-- Bytes of the syncset counted for the cache capacity. -/
def getSizeForCapacity (s : VictimSyncset) : Nat :=
  1 + 8 + 1 + (if HasPart s.compressedBitmap .cacheMarginBytes then 4 else 8) +
    (s.localSyncedVictims.map VictimCacheinfo.getSizeForCapacity).sum +
    (s.localBeaconedVictims.map fun pair =>
      pair.1.getKeyPayloadSize + pair.2.getSizeForCapacity).sum

/-! ## Transmission -/

/-- What a receiver reads of a syncset. -/
def received (s : VictimSyncset) : VictimSyncset :=
  { s with
    cacheMarginBytes :=
      if HasPart s.compressedBitmap .cacheMarginBytes then 0 else s.cacheMarginBytes
    cacheMarginDeltaBytes :=
      if HasPart s.compressedBitmap .cacheMarginBytes then s.cacheMarginDeltaBytes else 0
    localSyncedVictims := s.localSyncedVictims.map VictimCacheinfo.received
    localBeaconedVictims := s.localBeaconedVictims.map fun pair => (pair.1, pair.2.received)
    synced_empty := s.synced_empty.trans (by rw [List.map_eq_nil_iff])
    beaconed_empty := s.beaconed_empty.trans (by rw [List.map_eq_nil_iff]) }

@[simp] theorem getSizeForCapacity_received (s : VictimSyncset) :
    s.received.getSizeForCapacity = s.getSizeForCapacity := by
  simp only [getSizeForCapacity, received, List.map_map, Function.comp_def,
    VictimCacheinfo.getSizeForCapacity_received, DirinfoSet.getSizeForCapacity_received]
  rfl

/-! ## Cache margin bytes -/

/-- Conversion to a 32-bit signed integer, which wraps around. -/
def toInt32 (x : Int) : Int := (x + 2 ^ 31) % 2 ^ 32 - 2 ^ 31

/-- Conversion of a signed integer to a 64-bit unsigned one. -/
def toUint64 (x : Int) : Nat := (x % 2 ^ 64).toNat

/-- The signed delta of the free bytes, if it is in the range of a 32-bit integer. -/
def cacheMarginDelta (current prev : Nat) : Option Int :=
  if current ≥ prev then
    if current - prev ≤ 2 ^ 31 - 1 then some (toInt32 (current - prev : Nat)) else none
  else if prev - current ≤ 2 ^ 31 then some (toInt32 (-1 * toInt32 (prev - current : Nat)))
  else none

/-- The free bytes after a delta. -/
def applyCacheMarginDelta (existing : Nat) (delta : Int) : Option Nat :=
  if delta ≥ 0 then uint64Add existing (toUint64 delta)
  else some (uint64Minus existing (toUint64 (toInt32 (-1 * delta))))

/-! ## Compression -/

/-- The free bytes as a delta, if it is in range. -/
def compressCacheMarginBytes (s current prev : VictimSyncset) : VictimSyncset :=
  match cacheMarginDelta current.cacheMarginBytes prev.cacheMarginBytes with
  | some delta => s.setCacheMarginDeltaBytes delta
  | none => s

/-- The message about one current victim: complete if it is new, else deduplicated against the
previous one, and none if nothing changed. -/
def compressVictim (prev : List VictimCacheinfo) (v : VictimCacheinfo) :
    Option (Option VictimCacheinfo) :=
  match VictimCacheinfo.findVictimCacheinfoForKey v.key prev with
  | none => do
      require (v.isComplete = true)
      return some v
  | some p => do
      let d ← VictimCacheinfo.dedup v p
      return if d.isFullyDeduped then none else some d

/-- The messages about a list of current victims. -/
def compressVictims (prev current : List VictimCacheinfo) : Option (List VictimCacheinfo) :=
  KeyedList.collect (compressVictim prev) current

/-- The messages about the previous victims that are none any longer. -/
def staleVictims (current prev : List VictimCacheinfo) : List VictimCacheinfo :=
  (prev.filter fun p => (VictimCacheinfo.findVictimCacheinfoForKey p.key current).isNone).map
    VictimCacheinfo.markStale

def totalVictimSize (victims : List VictimCacheinfo) : Nat :=
  (victims.map VictimCacheinfo.getVictimCacheinfoPayloadSize).sum

def compressLocalSyncedVictims (s current prev : VictimSyncset) : Option VictimSyncset := do
  let (currentVictims, isCurrentComplete) := current.getLocalSyncedVictims
  require (isCurrentComplete = true)
  let (prevVictims, isPrevComplete) := prev.getLocalSyncedVictims
  require (isPrevComplete = true)
  let messages ← compressVictims prevVictims currentVictims
  let finalVictims := messages ++ staleVictims currentVictims prevVictims
  return if totalVictimSize currentVictims ≤ totalVictimSize finalVictims then s
    else s.setLocalSyncedVictimsForCompress finalVictims

/-- The message about the dirinfo set of one current victim. -/
def compressDirinfo (prev : List (Key × DirinfoSet)) (pair : Key × DirinfoSet) :
    Option (Option (Key × DirinfoSet)) :=
  match KeyedList.find Prod.fst pair.1 prev with
  | none => do
      require (pair.2.isComplete = true)
      return some pair
  | some p => do
      let d ← DirinfoSet.compress pair.2 p.2
      return if d.isFullyCompressed then none else some (pair.1, d)

/-- The messages about a list of dirinfo sets. -/
def compressDirinfos (prev current : List (Key × DirinfoSet)) :
    Option (List (Key × DirinfoSet)) :=
  KeyedList.collect (compressDirinfo prev) current

/-- Bytes of the dirinfo sets, without their keys. -/
def totalDirinfoSize (victims : List (Key × DirinfoSet)) : Nat :=
  (victims.map fun pair => pair.2.getDirinfoSetPayloadSize).sum

def compressLocalBeaconedVictims (s current prev : VictimSyncset) : Option VictimSyncset := do
  let (currentVictims, isCurrentComplete) := current.getLocalBeaconedVictims
  require (isCurrentComplete = true)
  let (prevVictims, isPrevComplete) := prev.getLocalBeaconedVictims
  require (isPrevComplete = true)
  let messages ← compressDirinfos prevVictims currentVictims
  return if totalDirinfoSize currentVictims ≤ totalDirinfoSize messages then s
    else s.setLocalBeaconedVictimsForCompress messages

/-- The current syncset, compressed against the previous one if that makes it smaller. -/
def compress (current prev : VictimSyncset) : Option VictimSyncset := do
  require (current.isComplete = true)
  require (prev.isComplete = true)
  let next ← uint64Add prev.seqnum 1
  require (current.seqnum = next)
  let s₁ := compressCacheMarginBytes current current prev
  let s₂ ← compressLocalSyncedVictims s₁ current prev
  let s₃ ← compressLocalBeaconedVictims s₂ current prev
  return if s₃.getVictimSyncsetPayloadSize < current.getVictimSyncsetPayloadSize then s₃
    else current

/-! ## Recovery -/

def recoverCacheMarginBytes (s compressed existing : VictimSyncset) : Option VictimSyncset :=
  match compressed.getCacheMarginBytesOrDelta with
  | .inl _ => some s
  | .inr delta => do
      let existingBytes ← existing.getCacheMarginBytesOrDelta.getLeft?
      let bytes ← applyCacheMarginDelta existingBytes delta
      return s.setCacheMarginBytes bytes

/-- One message about a victim applied to the victims known so far. -/
def applyVictim (victims : List VictimCacheinfo) (message : VictimCacheinfo) :
    Option (List VictimCacheinfo) :=
  match VictimCacheinfo.findVictimCacheinfoForKey message.key victims with
  | none =>
      if message.isComplete then some (victims ++ [message])
      else if message.isStale then some victims
      else do
        require (message.isFullyDeduped = false)
        return victims
  | some existing =>
      if message.isComplete then
        some (KeyedList.replace VictimCacheinfo.key message.key message victims)
      else if message.isStale then some (KeyedList.erase VictimCacheinfo.key message.key victims)
      else do
        require (message.isFullyDeduped = false)
        let recovered ← VictimCacheinfo.recover message existing
        return KeyedList.replace VictimCacheinfo.key message.key recovered victims

def applyVictims (victims messages : List VictimCacheinfo) : Option (List VictimCacheinfo) :=
  KeyedList.applyAll applyVictim victims messages

def recoverLocalSyncedVictims (s compressed existing : VictimSyncset) : Option VictimSyncset :=
  let (messages, isComplete) := compressed.getLocalSyncedVictims
  if isComplete then some s
  else do
    let (existingVictims, isExistingComplete) := existing.getLocalSyncedVictims
    require (isExistingComplete = true)
    let victims ← applyVictims existingVictims messages
    return s.setLocalSyncedVictims (VictimCacheinfo.sortByLocalRewards victims)

/-- One message about a dirinfo set applied to the dirinfo sets known so far. -/
def applyDirinfo (dirinfos : List (Key × DirinfoSet)) (message : Key × DirinfoSet) :
    Option (List (Key × DirinfoSet)) :=
  match KeyedList.find Prod.fst message.1 dirinfos with
  | none =>
      if message.2.isComplete then some (dirinfos ++ [message])
      else do
        require (message.2.isFullyCompressed = false)
        return dirinfos
  | some existing =>
      if message.2.isComplete then some (KeyedList.replace Prod.fst message.1 message dirinfos)
      else do
        require (message.2.isFullyCompressed = false)
        let recovered ← DirinfoSet.recover message.2 existing.2
        return KeyedList.replace Prod.fst message.1 (message.1, recovered) dirinfos

def applyDirinfos (dirinfos messages : List (Key × DirinfoSet)) :
    Option (List (Key × DirinfoSet)) :=
  KeyedList.applyAll applyDirinfo dirinfos messages

def recoverLocalBeaconedVictims (s compressed existing : VictimSyncset) : Option VictimSyncset :=
  let (messages, isComplete) := compressed.getLocalBeaconedVictims
  if isComplete then some s
  else do
    let (existingDirinfos, isExistingComplete) := existing.getLocalBeaconedVictims
    require (isExistingComplete = true)
    let dirinfos ← applyDirinfos existingDirinfos messages
    return s.setLocalBeaconedVictims dirinfos

/-- The complete syncset that a compressed one stands for, given the previous one. -/
def recover (compressed existing : VictimSyncset) : Option VictimSyncset := do
  require (compressed.isCompressed = true)
  require (existing.isComplete = true)
  let next ← uint64Add existing.seqnum 1
  require (compressed.seqnum = next)
  let s₁ ← recoverCacheMarginBytes compressed compressed existing
  let s₂ ← recoverLocalSyncedVictims s₁ compressed existing
  let s₃ ← recoverLocalBeaconedVictims s₂ compressed existing
  require (s₃.isComplete = true)
  require (s₃.seqnum = compressed.seqnum)
  require (s₃.isEnforceComplete = compressed.isEnforceComplete)
  return s₃

end VictimSyncset

end Covered.Victim
