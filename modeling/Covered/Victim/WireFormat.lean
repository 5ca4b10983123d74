import Mathlib.Algebra.Order.BigOperators.Group.List
import Covered.Common.DynamicArray
import Covered.Lib.SingleFloat
import Covered.Victim.DeltaCompression

/-!
# Wire format of victim syncsets

A syncset is written field by field to a message payload or to a file. The bitmaps of the syncset,
of its cacheinfos and of its dirinfo sets say which fields follow. Lengths of keys and directory
infos are big-endian, everything else is in the byte order of the machine, which is little-endian.

Each class has three traversals in the source, the size, the serializer and the deserializer, the
last two in a variant for payloads and one for files that differ in nothing but the sink and the
source; `serializeTo` and `deserializeFrom` are the two variants in one. `wire` is the format
itself: the serializers emit it, the deserializers parse it, and its length is the size.

A bitmap that no sender writes is not a value of the modelled types, and reading it fails; the
source rejects the bitmap of a default-constructed object only.
-/

set_option autoImplicit false

namespace Covered

open Common Lib.ByteStream Lib.SingleFloat List

section Primitives

variable {S : Type}

/-- A bitmap of the given width from the number that was read. -/
def bitmapOfNat (width n : Nat) : Option (BitVec width) :=
  if n < 2 ^ width then some (BitVec.ofNat width n) else none

theorem bitmapOfNat_toNat {width : Nat} (bitmap : BitVec width) :
    bitmapOfNat width bitmap.toNat = some bitmap := by
  rw [bitmapOfNat, if_pos bitmap.isLt, BitVec.ofNat_toNat, BitVec.setWidth_eq]

theorem bitmap_lt {width : Nat} (h : width ≤ 8) (bitmap : BitVec width) :
    bitmap.toNat < 256 ^ 1 :=
  Nat.lt_of_lt_of_le bitmap.isLt (Nat.pow_le_pow_right (by decide) h)

/-- Read a single-precision number. -/
def getFloat (source : Source S) : StateT S Option ℚ :=
  source.getLittleEndian 4 >>= fun bits => pure (ofBits bits)

theorem parses_getFloat (source : Source S) {x : ℚ} (h : IsFloat x) :
    Parses source (getFloat source) x (littleEndian 4 (toBits x)) := by
  have hget := (parses_getLittleEndian source (toBits_lt h)).map ofBits
  rw [ofBits_toBits h] at hget
  exact hget

end Primitives

/-! ## Keys -/

namespace Common.Key

variable {S : Type}

def serializeTo (sink : Sink S) (key : Key) : StateT S Option Unit := do
  sink.put (bigEndian 4 key.keystr.length)
  sink.put key.keystr

def deserializeFrom (source : Source S) : StateT S Option Key := do
  let keysize ← source.getBigEndian 4
  let keystr ← source.get keysize
  return ⟨keystr⟩

def wire (key : Key) : List UInt8 := bigEndian 4 key.keystr.length ++ key.keystr

theorem length_wire (key : Key) : key.wire.length = key.getKeyPayloadSize := by
  rw [wire, length_append, length_bigEndian]
  rfl

theorem emits (sink : Sink S) (key : Key) : Emits sink (key.serializeTo sink) key.wire :=
  (emits_put sink _).andThen (emits_put sink _)

theorem parses (source : Source S) {key : Key} (h : key.getKeyPayloadSize < 2 ^ 32) :
    Parses source (deserializeFrom source) key key.wire := by
  have hlength : key.keystr.length < 256 ^ 4 := by
    rw [getKeyPayloadSize, getKeyLength] at h
    omega
  refine (parses_getBigEndian source hlength).andThen ?_
  exact (parses_get source rfl).map Key.mk

end Common.Key

/-! ## Dirinfo sets -/

namespace Cooperation

variable {S : Type}

def DirectoryInfo.serializeTo (sink : Sink S) (dirinfo : DirectoryInfo) : StateT S Option Unit :=
  sink.put (bigEndian 4 dirinfo.targetEdgeIdx)

def DirectoryInfo.deserializeFrom (source : Source S) : StateT S Option DirectoryInfo := do
  let targetEdgeIdx ← source.getBigEndian 4
  return ⟨targetEdgeIdx⟩

namespace DirinfoSet

def serializeDirinfoSetInternal (sink : Sink S) (dirinfos : List DirectoryInfo) :
    StateT S Option Unit := do
  sink.put (littleEndian 4 dirinfos.length)
  writeMany (DirectoryInfo.serializeTo sink) dirinfos

def deserializeDirinfoSetInternal (source : Source S) : StateT S Option (List DirectoryInfo) := do
  let dirinfoSetSize ← source.getLittleEndian 4
  readMany (DirectoryInfo.deserializeFrom source) dirinfoSetSize

def serializeTo (sink : Sink S) (set : DirinfoSet) : StateT S Option Unit := do
  sink.put (littleEndian 1 set.deltaBitmap.toNat)
  (if set.isComplete = true then serializeDirinfoSetInternal sink set.dirinfoSet
  else do
    onlyIf (hasNewDelta set.deltaBitmap)
      (serializeDirinfoSetInternal sink set.newDirinfoDeltaSet)
    onlyIf (hasStaleDelta set.deltaBitmap)
      (serializeDirinfoSetInternal sink set.staleDirinfoDeltaSet))

/-- The set with the given parts, if a delta is there iff its bit is set. -/
def ofParts (deltaBitmap : BitVec 3) (dirinfos newDelta staleDelta : List DirectoryInfo) :
    Option DirinfoSet :=
  if h : (deltaBitmap &&& 0b110#3 ≠ 0 → deltaBitmap &&& deltaMask = deltaMask) ∧
      (hasNewDelta deltaBitmap ↔ newDelta ≠ []) ∧
      (hasStaleDelta deltaBitmap ↔ staleDelta ≠ []) then
    some ⟨deltaBitmap, dirinfos, newDelta, staleDelta, h.1, h.2.1, h.2.2⟩
  else none

def deserializeFrom (source : Source S) : StateT S Option DirinfoSet := do
  let byte ← source.getLittleEndian 1
  let deltaBitmap ← ofOption (bitmapOfNat 3 byte)
  (if deltaBitmap &&& deltaMask = completeBitmap &&& deltaMask then do
    let dirinfos ← deserializeDirinfoSetInternal source
    ofOption (ofParts deltaBitmap dirinfos [] [])
  else do
    let newDelta ← optional (hasNewDelta deltaBitmap) (deserializeDirinfoSetInternal source) []
    let staleDelta ← optional (hasStaleDelta deltaBitmap) (deserializeDirinfoSetInternal source) []
    ofOption (ofParts deltaBitmap [] newDelta staleDelta))

def wireInternal (dirinfos : List DirectoryInfo) : List UInt8 :=
  littleEndian 4 dirinfos.length ++
    dirinfos.flatMap fun dirinfo => bigEndian 4 dirinfo.targetEdgeIdx

def wire (set : DirinfoSet) : List UInt8 :=
  littleEndian 1 set.deltaBitmap.toNat ++
    if set.isComplete = true then wireInternal set.dirinfoSet
    else
      (if hasNewDelta set.deltaBitmap then wireInternal set.newDirinfoDeltaSet else []) ++
        if hasStaleDelta set.deltaBitmap then wireInternal set.staleDirinfoDeltaSet else []

/-- The edge indices are 32-bit numbers. -/
structure InRange (set : DirinfoSet) : Prop where
  complete : ∀ dirinfo ∈ set.dirinfoSet, dirinfo.targetEdgeIdx < 2 ^ 32
  new : ∀ dirinfo ∈ set.newDirinfoDeltaSet, dirinfo.targetEdgeIdx < 2 ^ 32
  stale : ∀ dirinfo ∈ set.staleDirinfoDeltaSet, dirinfo.targetEdgeIdx < 2 ^ 32

theorem totalPayloadSize_eq (dirinfos : List DirectoryInfo) :
    totalPayloadSize dirinfos = 4 * dirinfos.length := by
  rw [totalPayloadSize, show DirectoryInfo.getDirectoryInfoPayloadSize = fun _ => 4 from rfl,
    map_const', sum_replicate_nat, Nat.mul_comm]

theorem length_wireInternal (dirinfos : List DirectoryInfo) :
    (wireInternal dirinfos).length = getDirinfoSetPayloadSizeInternal dirinfos := by
  rw [wireInternal, length_append, length_littleEndian, length_flatMap,
    getDirinfoSetPayloadSizeInternal, totalPayloadSize]
  simp only [length_bigEndian]
  rfl

theorem length_wire (set : DirinfoSet) : set.wire.length = set.getDirinfoSetPayloadSize := by
  rw [wire, getDirinfoSetPayloadSize, length_append, length_littleEndian]
  by_cases hcomplete : set.isComplete = true
  · rw [if_pos hcomplete, if_pos hcomplete, length_wireInternal]
  · rw [if_neg hcomplete, if_neg hcomplete, length_append, apply_ite length,
      apply_ite length, length_wireInternal, length_wireInternal, length_nil]

theorem emits_internal (sink : Sink S) (dirinfos : List DirectoryInfo) :
    Emits sink (serializeDirinfoSetInternal sink dirinfos) (wireInternal dirinfos) :=
  (emits_put sink _).andThen (emits_writeMany fun _ _ => emits_put sink _)

theorem emits (sink : Sink S) (set : DirinfoSet) : Emits sink (set.serializeTo sink) set.wire := by
  refine (emits_put sink _).andThen ?_
  refine Emits.ite (fun _ => emits_internal sink _) fun _ => ?_
  exact (Emits.onlyIf fun _ => emits_internal sink _).andThen
    (Emits.onlyIf fun _ => emits_internal sink _)

theorem parses_internal (source : Source S) {dirinfos : List DirectoryInfo}
    (hrange : ∀ dirinfo ∈ dirinfos, dirinfo.targetEdgeIdx < 2 ^ 32)
    (hsize : getDirinfoSetPayloadSizeInternal dirinfos < 2 ^ 32) :
    Parses source (deserializeDirinfoSetInternal source) dirinfos (wireInternal dirinfos) := by
  have hlength : dirinfos.length < 256 ^ 4 := by
    rw [getDirinfoSetPayloadSizeInternal, totalPayloadSize_eq] at hsize
    omega
  have hread : Parses source (readMany (DirectoryInfo.deserializeFrom source) dirinfos.length)
      (dirinfos.map id) (dirinfos.flatMap fun dirinfo => bigEndian 4 dirinfo.targetEdgeIdx) := by
    refine parses_readMany fun dirinfo hdirinfo => ?_
    have hlt : dirinfo.targetEdgeIdx < 256 ^ 4 := hrange dirinfo hdirinfo
    exact (parses_getBigEndian source hlt).map DirectoryInfo.mk
  rw [map_id] at hread
  exact (parses_getLittleEndian source hlength).andThen hread

theorem ofParts_received (set : DirinfoSet) :
    ofParts set.deltaBitmap set.received.dirinfoSet set.newDirinfoDeltaSet
      set.staleDirinfoDeltaSet = some set.received :=
  dif_pos ⟨set.bitmap_wf, set.new_iff, set.stale_iff⟩

theorem parses (source : Source S) {set : DirinfoSet} (hrange : set.InRange)
    (hsize : set.getDirinfoSetPayloadSize < 2 ^ 32) :
    Parses source (deserializeFrom source) set.received set.wire := by
  have hparts := ofParts_received set
  rw [getDirinfoSetPayloadSize] at hsize
  rw [wire]
  refine (parses_getLittleEndian source (bitmap_lt (by decide) _)).andThen ?_
  refine Parses.afterOption (bitmapOfNat_toNat _) ?_
  by_cases hcomplete : set.isComplete = true
  · -- a complete set has no deltas
    obtain ⟨hnew, hstale⟩ := deltas_eq_nil_of_isComplete hcomplete
    have hbit : set.deltaBitmap &&& deltaMask = completeBitmap &&& deltaMask :=
      beq_iff_eq.1 hcomplete
    rw [if_pos hcomplete] at hsize
    rw [hnew, hstale, dirinfoSet_received hcomplete] at hparts
    rw [if_pos hbit, if_pos hcomplete]
    exact (parses_internal source hrange.complete (by omega)).thenOption hparts
  · have hbit : ¬ set.deltaBitmap &&& deltaMask = completeBitmap &&& deltaMask :=
      fun h => hcomplete (beq_iff_eq.2 h)
    have hempty : set.received.dirinfoSet = [] := if_neg hcomplete
    have hnil : ∀ {delta : List DirectoryInfo} {present : Prop} [Decidable present],
        (present ↔ delta ≠ []) → (if present then delta else []) = delta := by
      intro delta present _ hiff
      split
      · rfl
      · next habsent => exact (not_not.1 fun hne => habsent (hiff.2 hne)).symm
    rw [if_neg hcomplete] at hsize
    rw [hempty] at hparts
    rw [if_neg hbit, if_neg hcomplete]
    have hnewRead : Parses source
        (optional (hasNewDelta set.deltaBitmap) (deserializeDirinfoSetInternal source) [])
        (if hasNewDelta set.deltaBitmap then set.newDirinfoDeltaSet else [])
        (if hasNewDelta set.deltaBitmap then wireInternal set.newDirinfoDeltaSet else []) := by
      refine Parses.optional fun hnew => ?_
      rw [if_pos hnew] at hsize
      exact parses_internal source hrange.new (by omega)
    have hstaleRead : Parses source
        (optional (hasStaleDelta set.deltaBitmap) (deserializeDirinfoSetInternal source) [])
        (if hasStaleDelta set.deltaBitmap then set.staleDirinfoDeltaSet else [])
        (if hasStaleDelta set.deltaBitmap then wireInternal set.staleDirinfoDeltaSet else []) := by
      refine Parses.optional fun hstale => ?_
      rw [if_pos hstale] at hsize
      exact parses_internal source hrange.stale (by omega)
    rw [hnil set.new_iff] at hnewRead
    rw [hnil set.stale_iff] at hstaleRead
    exact hnewRead.andThen (hstaleRead.thenOption hparts)

end DirinfoSet

end Cooperation

/-! ## Cacheinfos -/

namespace Victim

open Cooperation

variable {S : Type}

namespace VictimCacheinfo

/-- The beacon as a signed number; `-1` stands for an unknown one. -/
def beaconNumber : Option Nat → Int
  | none => -1
  | some edgeIdx => edgeIdx

/-- The beacon with the given number. -/
def beaconOfNumber (n : Int) : Option Nat := if n < 0 then none else some n.toNat

def serializeTo (sink : Sink S) (v : VictimCacheinfo) : StateT S Option Unit := do
  sink.put (littleEndian 1 v.dedupBitmap.toNat)
  v.key.serializeTo sink
  sink.put (littleEndian 4 (unsigned32 (beaconNumber v.beaconEdgeidx)))
  onlyIf (¬ Has v.dedupBitmap objectSizeDedupMask) (sink.put (littleEndian 4 v.objectSize))
  onlyIf (¬ Has v.dedupBitmap localCachedPopularityDedupMask)
    (sink.put (littleEndian 4 (toBits v.localCachedPopularity)))
  onlyIf (¬ Has v.dedupBitmap redirectedCachedPopularityDedupMask)
    (sink.put (littleEndian 4 (toBits v.redirectedCachedPopularity)))
  onlyIf (¬ Has v.dedupBitmap localRewardDedupMask)
    (sink.put (littleEndian 4 (toBits v.localReward)))

/-- The bitmap, if it is that of a cacheinfo. -/
def legalBitmapOfNat (n : Nat) : Option { bitmap : BitVec 6 // LegalBitmap bitmap } :=
  (bitmapOfNat 6 n).bind fun bitmap =>
    if h : LegalBitmap bitmap then some ⟨bitmap, h⟩ else none

def deserializeFrom (source : Source S) : StateT S Option VictimCacheinfo := do
  let byte ← source.getLittleEndian 1
  let bitmap ← ofOption (legalBitmapOfNat byte)
  let key ← Key.deserializeFrom source
  let beaconEdgeidx ← source.getLittleEndian 4
  let objectSize ← optional (¬ Has bitmap.1 objectSizeDedupMask) (source.getLittleEndian 4) 0
  let localCachedPopularity ←
    optional (¬ Has bitmap.1 localCachedPopularityDedupMask) (getFloat source) 0
  let redirectedCachedPopularity ←
    optional (¬ Has bitmap.1 redirectedCachedPopularityDedupMask) (getFloat source) 0
  let localReward ← optional (¬ Has bitmap.1 localRewardDedupMask) (getFloat source) 0
  return {
    dedupBitmap := bitmap.1
    key := key
    beaconEdgeidx := beaconOfNumber (signed32 beaconEdgeidx)
    objectSize := objectSize
    localCachedPopularity := localCachedPopularity
    redirectedCachedPopularity := redirectedCachedPopularity
    localReward := localReward
    redirectedCachedReward := 0
    bitmap_wf := bitmap.2 }

def wire (v : VictimCacheinfo) : List UInt8 :=
  littleEndian 1 v.dedupBitmap.toNat ++ (v.key.wire ++
    (littleEndian 4 (unsigned32 (beaconNumber v.beaconEdgeidx)) ++
    ((if ¬ Has v.dedupBitmap objectSizeDedupMask then littleEndian 4 v.objectSize else []) ++
    ((if ¬ Has v.dedupBitmap localCachedPopularityDedupMask then
      littleEndian 4 (toBits v.localCachedPopularity) else []) ++
    ((if ¬ Has v.dedupBitmap redirectedCachedPopularityDedupMask then
      littleEndian 4 (toBits v.redirectedCachedPopularity) else []) ++
    (if ¬ Has v.dedupBitmap localRewardDedupMask then
      littleEndian 4 (toBits v.localReward) else []))))))

/-- The fields are values of the types of the source. -/
structure InRange (v : VictimCacheinfo) : Prop where
  beaconEdgeidx : ∀ edgeIdx, v.beaconEdgeidx = some edgeIdx → edgeIdx < 2 ^ 31
  objectSize : v.objectSize < 2 ^ 32
  localCachedPopularity : IsFloat v.localCachedPopularity
  redirectedCachedPopularity : IsFloat v.redirectedCachedPopularity
  localReward : IsFloat v.localReward

theorem length_wire (v : VictimCacheinfo) :
    v.wire.length = v.getVictimCacheinfoPayloadSize := by
  rw [wire, getVictimCacheinfoPayloadSize, fieldsSize]
  simp only [length_append, length_littleEndian, Key.length_wire, apply_ite length,
    length_nil]
  omega

theorem emits (sink : Sink S) (v : VictimCacheinfo) : Emits sink (v.serializeTo sink) v.wire := by
  refine (emits_put sink _).andThen ((v.key.emits sink).andThen ((emits_put sink _).andThen ?_))
  refine (Emits.onlyIf fun _ => emits_put sink _).andThen ?_
  refine (Emits.onlyIf fun _ => emits_put sink _).andThen ?_
  refine (Emits.onlyIf fun _ => emits_put sink _).andThen ?_
  exact Emits.onlyIf fun _ => emits_put sink _

theorem beaconOfNumber_beaconNumber {beacon : Option Nat}
    (h : ∀ edgeIdx, beacon = some edgeIdx → edgeIdx < 2 ^ 31) :
    beaconOfNumber (signed32 (unsigned32 (beaconNumber beacon))) = beacon := by
  cases beacon with
  | none => rfl
  | some edgeIdx =>
    have hlt := h edgeIdx rfl
    rw [beaconNumber, signed32_unsigned32 (by omega) (by omega), beaconOfNumber, if_neg (by omega),
      Int.toNat_natCast]

theorem legalBitmapOfNat_toNat {bitmap : BitVec 6} (h : LegalBitmap bitmap) :
    legalBitmapOfNat bitmap.toNat = some ⟨bitmap, h⟩ := by
  rw [legalBitmapOfNat, bitmapOfNat_toNat, Option.bind_some, dif_pos h]

/-- A field that was not sent has its default. -/
theorem getD_ite {α : Type} (c : Prop) [Decidable c] (a default : α) :
    (if c then some a else none).getD default = if c then a else default := by
  split <;> rfl

theorem parses (source : Source S) {v : VictimCacheinfo} (hrange : v.InRange)
    (hsize : v.getVictimCacheinfoPayloadSize < 2 ^ 32) :
    Parses source (deserializeFrom source) v.received v.wire := by
  have hkey : v.key.getKeyPayloadSize < 2 ^ 32 := by
    rw [getVictimCacheinfoPayloadSize] at hsize
    omega
  have hobjectSize : v.objectSize < 256 ^ 4 := hrange.objectSize
  have hreceived : v.received = {
      dedupBitmap := v.dedupBitmap
      key := v.key
      beaconEdgeidx := beaconOfNumber (signed32 (unsigned32 (beaconNumber v.beaconEdgeidx)))
      objectSize := if ¬ Has v.dedupBitmap objectSizeDedupMask then v.objectSize else 0
      localCachedPopularity :=
        if ¬ Has v.dedupBitmap localCachedPopularityDedupMask then v.localCachedPopularity else 0
      redirectedCachedPopularity :=
        if ¬ Has v.dedupBitmap redirectedCachedPopularityDedupMask then
          v.redirectedCachedPopularity else 0
      localReward := if ¬ Has v.dedupBitmap localRewardDedupMask then v.localReward else 0
      redirectedCachedReward := 0
      bitmap_wf := v.bitmap_wf } := by
    rw [received, getObjectSize, getLocalCachedPopularity, getRedirectedCachedPopularity,
      getLocalReward, beaconOfNumber_beaconNumber hrange.beaconEdgeidx]
    simp only [getD_ite]
  rw [hreceived, wire]
  -- the fields in their order
  refine (parses_getLittleEndian source (bitmap_lt (by decide) _)).andThen ?_
  refine Parses.afterOption (legalBitmapOfNat_toNat v.bitmap_wf) ?_
  refine (Key.parses source hkey).andThen ?_
  refine (parses_getLittleEndian source (unsigned32_lt _)).andThen ?_
  refine (Parses.optional fun _ => parses_getLittleEndian source hobjectSize).andThen ?_
  refine (Parses.optional fun _ => parses_getFloat source hrange.localCachedPopularity).andThen ?_
  refine (Parses.optional fun _ =>
    parses_getFloat source hrange.redirectedCachedPopularity).andThen ?_
  exact (Parses.optional fun _ => parses_getFloat source hrange.localReward).map _

end VictimCacheinfo

/-! ## Syncsets -/

namespace VictimSyncset

def serializeTo (sink : Sink S) (s : VictimSyncset) : StateT S Option Unit := do
  sink.put (littleEndian 1 s.compressedBitmap.toNat)
  sink.put (littleEndian 8 s.seqnum)
  sink.put (littleEndian 1 s.isEnforceComplete.toNat)
  (if ¬ HasPart s.compressedBitmap .cacheMarginBytes then
    sink.put (littleEndian 8 s.cacheMarginBytes)
  else sink.put (littleEndian 4 (unsigned32 s.cacheMarginDeltaBytes)))
  onlyIf (¬ Has s.compressedBitmap localSyncedVictimsEmptyMask) (do
    sink.put (littleEndian 4 s.localSyncedVictims.length)
    writeMany (VictimCacheinfo.serializeTo sink) s.localSyncedVictims)
  onlyIf (¬ Has s.compressedBitmap localBeaconedVictimsEmptyMask) (do
    sink.put (littleEndian 4 s.localBeaconedVictims.length)
    writeMany (fun pair => do
      pair.1.serializeTo sink
      pair.2.serializeTo sink) s.localBeaconedVictims)

/-- The syncset with the given parts, if a list is marked as empty iff it is. -/
def ofParts (compressedBitmap : BitVec 6) (seqnum : Nat) (isEnforceComplete : Bool)
    (cacheMarginBytes : Nat) (cacheMarginDeltaBytes : Int)
    (localSyncedVictims : List VictimCacheinfo)
    (localBeaconedVictims : List (Key × DirinfoSet)) : Option VictimSyncset :=
  if h : LegalBitmap compressedBitmap ∧
      (Has compressedBitmap localSyncedVictimsEmptyMask ↔ localSyncedVictims = []) ∧
      (Has compressedBitmap localBeaconedVictimsEmptyMask ↔ localBeaconedVictims = []) then
    some ⟨compressedBitmap, seqnum, isEnforceComplete, cacheMarginBytes, cacheMarginDeltaBytes,
      localSyncedVictims, localBeaconedVictims, h.1, h.2.1, h.2.2⟩
  else none

/-- The free bytes or their delta. -/
def deserializeCacheMargin (source : Source S) (compressedBitmap : BitVec 6) :
    StateT S Option (Nat × Int) :=
  if ¬ HasPart compressedBitmap .cacheMarginBytes then do
    let cacheMarginBytes ← source.getLittleEndian 8
    return (cacheMarginBytes, 0)
  else do
    let cacheMarginDeltaBytes ← source.getLittleEndian 4
    return (0, signed32 cacheMarginDeltaBytes)

def deserializeLocalSyncedVictims (source : Source S) : StateT S Option (List VictimCacheinfo) := do
  let localSyncedVictimsSize ← source.getLittleEndian 4
  readMany (VictimCacheinfo.deserializeFrom source) localSyncedVictimsSize

def deserializeBeaconedVictim (source : Source S) : StateT S Option (Key × DirinfoSet) := do
  let key ← Key.deserializeFrom source
  let dirinfoSet ← DirinfoSet.deserializeFrom source
  return (key, dirinfoSet)

def deserializeLocalBeaconedVictims (source : Source S) :
    StateT S Option (List (Key × DirinfoSet)) := do
  let localBeaconedVictimsSize ← source.getLittleEndian 4
  readMany (deserializeBeaconedVictim source) localBeaconedVictimsSize

def deserializeFrom (source : Source S) : StateT S Option VictimSyncset := do
  let byte ← source.getLittleEndian 1
  let bitmap ← ofOption (bitmapOfNat 6 byte)
  let seqnum ← source.getLittleEndian 8
  let isEnforceComplete ← source.getLittleEndian 1
  let margin ← deserializeCacheMargin source bitmap
  let localSyncedVictims ← optional (¬ Has bitmap localSyncedVictimsEmptyMask)
    (deserializeLocalSyncedVictims source) []
  let localBeaconedVictims ← optional (¬ Has bitmap localBeaconedVictimsEmptyMask)
    (deserializeLocalBeaconedVictims source) []
  ofOption (ofParts bitmap seqnum (isEnforceComplete != 0) margin.1 margin.2 localSyncedVictims
    localBeaconedVictims)

def wireMargin (s : VictimSyncset) : List UInt8 :=
  if ¬ HasPart s.compressedBitmap .cacheMarginBytes then littleEndian 8 s.cacheMarginBytes
  else littleEndian 4 (unsigned32 s.cacheMarginDeltaBytes)

def wireVictims (victims : List VictimCacheinfo) : List UInt8 :=
  littleEndian 4 victims.length ++ victims.flatMap VictimCacheinfo.wire

def wireBeaconed (pair : Key × DirinfoSet) : List UInt8 := pair.1.wire ++ pair.2.wire

def wireDirinfos (dirinfos : List (Key × DirinfoSet)) : List UInt8 :=
  littleEndian 4 dirinfos.length ++ dirinfos.flatMap wireBeaconed

def wire (s : VictimSyncset) : List UInt8 :=
  littleEndian 1 s.compressedBitmap.toNat ++ (littleEndian 8 s.seqnum ++
    (littleEndian 1 s.isEnforceComplete.toNat ++ (s.wireMargin ++
    ((if ¬ Has s.compressedBitmap localSyncedVictimsEmptyMask then
      wireVictims s.localSyncedVictims else []) ++
    (if ¬ Has s.compressedBitmap localBeaconedVictimsEmptyMask then
      wireDirinfos s.localBeaconedVictims else [])))))

/-- The fields are values of the types of the source, and so is the size. -/
structure InRange (s : VictimSyncset) : Prop where
  seqnum : s.seqnum < 2 ^ 64
  cacheMarginBytes : s.cacheMarginBytes < 2 ^ 64
  cacheMarginDeltaBytes : -2 ^ 31 ≤ s.cacheMarginDeltaBytes ∧ s.cacheMarginDeltaBytes < 2 ^ 31
  victims : ∀ v ∈ s.localSyncedVictims, v.InRange
  dirinfos : ∀ pair ∈ s.localBeaconedVictims, pair.2.InRange
  payloadSize : s.getVictimSyncsetPayloadSize < 2 ^ 32

section Sizes

variable {α : Type} {payloadSize : α → Nat} {l : List α}

/-- A list with its length in front takes the bytes that are counted for it. -/
theorem length_list {encode : α → List UInt8} (h : ∀ a, (encode a).length = payloadSize a)
    {c : Prop} [Decidable c] (hempty : c ↔ l = []) :
    (if ¬ c then littleEndian 4 l.length ++ l.flatMap encode else []).length =
      listPayloadSize payloadSize l := by
  rw [listPayloadSize]
  by_cases hc : c
  · rw [if_neg (not_not.2 hc), if_pos (hempty.1 hc), length_nil]
  · rw [if_pos hc, if_neg fun hnil => hc (hempty.2 hnil), length_append, length_littleEndian,
      length_flatMap]
    simp only [h]

theorem payloadSize_le_list {a : α} (ha : a ∈ l) :
    payloadSize a ≤ listPayloadSize payloadSize l := by
  rw [listPayloadSize, if_neg (ne_nil_of_mem ha)]
  exact Nat.le_trans (le_sum_of_mem (mem_map_of_mem ha)) (Nat.le_add_left ..)

theorem length_le_list (hpos : ∀ a ∈ l, 1 ≤ payloadSize a) :
    l.length ≤ listPayloadSize payloadSize l := by
  have hsum : l.length ≤ (l.map payloadSize).sum := by
    induction l with
    | nil => exact Nat.le_refl 0
    | cons a rest ih =>
      have hhead := hpos a mem_cons_self
      have htail := ih fun b hb => hpos b (mem_cons_of_mem a hb)
      rw [length_cons, map_cons, sum_cons]
      omega
  rw [listPayloadSize]
  split
  · next hnil => rw [hnil, length_nil]
  · omega

end Sizes

theorem length_wireMargin (s : VictimSyncset) :
    s.wireMargin.length = if HasPart s.compressedBitmap .cacheMarginBytes then 4 else 8 := by
  rw [wireMargin]
  by_cases hpart : HasPart s.compressedBitmap .cacheMarginBytes
  · rw [if_neg (not_not.2 hpart), if_pos hpart, length_littleEndian]
  · rw [if_pos hpart, if_neg hpart, length_littleEndian]

theorem length_wireBeaconed (pair : Key × DirinfoSet) :
    (wireBeaconed pair).length = pair.1.getKeyPayloadSize + pair.2.getDirinfoSetPayloadSize := by
  rw [wireBeaconed, length_append, Key.length_wire, DirinfoSet.length_wire]

theorem length_wire (s : VictimSyncset) : s.wire.length = s.getVictimSyncsetPayloadSize := by
  simp only [wire, wireVictims, wireDirinfos, length_append, length_littleEndian,
    length_wireMargin, length_list VictimCacheinfo.length_wire s.synced_empty,
    length_list length_wireBeaconed s.beaconed_empty, getVictimSyncsetPayloadSize]
  omega

theorem emits (sink : Sink S) (s : VictimSyncset) : Emits sink (s.serializeTo sink) s.wire := by
  refine (emits_put sink _).andThen ((emits_put sink _).andThen ((emits_put sink _).andThen ?_))
  refine (Emits.ite (fun _ => emits_put sink _) fun _ => emits_put sink _).andThen ?_
  refine (Emits.onlyIf fun _ => ?_).andThen (Emits.onlyIf fun _ => ?_)
  · exact (emits_put sink _).andThen (emits_writeMany fun v _ => v.emits sink)
  · refine (emits_put sink _).andThen (emits_writeMany fun pair _ => ?_)
    exact (pair.1.emits sink).andThen (pair.2.emits sink)

theorem parses_margin (source : Source S) {s : VictimSyncset} (hrange : s.InRange) :
    Parses source (deserializeCacheMargin source s.compressedBitmap)
      (s.received.cacheMarginBytes, s.received.cacheMarginDeltaBytes) s.wireMargin := by
  rw [deserializeCacheMargin, wireMargin]
  by_cases hpart : HasPart s.compressedBitmap .cacheMarginBytes
  · have hbytes : s.received.cacheMarginBytes = 0 := if_pos hpart
    have hdelta : s.received.cacheMarginDeltaBytes =
        signed32 (unsigned32 s.cacheMarginDeltaBytes) := by
      rw [signed32_unsigned32 hrange.cacheMarginDeltaBytes.1 hrange.cacheMarginDeltaBytes.2]
      exact if_pos hpart
    rw [if_neg (not_not.2 hpart), if_neg (not_not.2 hpart), hbytes, hdelta]
    exact (parses_getLittleEndian source (unsigned32_lt _)).map _
  · have hbytes : s.received.cacheMarginBytes = s.cacheMarginBytes := if_neg hpart
    have hdelta : s.received.cacheMarginDeltaBytes = 0 := if_neg hpart
    have hlt : s.cacheMarginBytes < 256 ^ 8 := hrange.cacheMarginBytes
    rw [if_pos hpart, if_pos hpart, hbytes, hdelta]
    exact (parses_getLittleEndian source hlt).map _

theorem parses_victims (source : Source S) {victims : List VictimCacheinfo}
    (hrange : ∀ v ∈ victims, v.InRange)
    (hsize : listPayloadSize VictimCacheinfo.getVictimCacheinfoPayloadSize victims < 2 ^ 32) :
    Parses source (deserializeLocalSyncedVictims source)
      (victims.map VictimCacheinfo.received) (wireVictims victims) := by
  have hlength : victims.length < 256 ^ 4 := by
    refine Nat.lt_of_le_of_lt (length_le_list fun v _ => ?_) hsize
    rw [VictimCacheinfo.getVictimCacheinfoPayloadSize]
    omega
  refine (parses_getLittleEndian source hlength).andThen (parses_readMany fun v hv => ?_)
  exact VictimCacheinfo.parses source (hrange v hv)
    (Nat.lt_of_le_of_lt (payloadSize_le_list hv) hsize)

theorem parses_dirinfos (source : Source S) {dirinfos : List (Key × DirinfoSet)}
    (hrange : ∀ pair ∈ dirinfos, pair.2.InRange)
    (hsize : listPayloadSize (fun pair : Key × DirinfoSet =>
      pair.1.getKeyPayloadSize + pair.2.getDirinfoSetPayloadSize) dirinfos < 2 ^ 32) :
    Parses source (deserializeLocalBeaconedVictims source)
      (dirinfos.map fun pair => (pair.1, pair.2.received)) (wireDirinfos dirinfos) := by
  have hlength : dirinfos.length < 256 ^ 4 := by
    refine Nat.lt_of_le_of_lt (length_le_list fun pair _ => ?_) hsize
    rw [Key.getKeyPayloadSize]
    omega
  refine (parses_getLittleEndian source hlength).andThen (parses_readMany fun pair hpair => ?_)
  have hpairSize := Nat.lt_of_le_of_lt (payloadSize_le_list hpair) hsize
  refine (Key.parses source (by omega)).andThen ?_
  exact (DirinfoSet.parses source (hrange pair hpair) (by omega)).map _

theorem ofParts_received (s : VictimSyncset) :
    ofParts s.compressedBitmap s.seqnum s.isEnforceComplete s.received.cacheMarginBytes
      s.received.cacheMarginDeltaBytes s.received.localSyncedVictims
      s.received.localBeaconedVictims = some s.received :=
  dif_pos ⟨s.bitmap_wf, s.received.synced_empty, s.received.beaconed_empty⟩

/-- The deserializer reads from the format of a syncset what a receiver gets of it. -/
theorem parses (source : Source S) {s : VictimSyncset} (hrange : s.InRange) :
    Parses source (deserializeFrom source) s.received s.wire := by
  have hsize := hrange.payloadSize
  rw [getVictimSyncsetPayloadSize] at hsize
  have hseqnum : s.seqnum < 256 ^ 8 := hrange.seqnum
  have henforce : s.isEnforceComplete.toNat < 256 ^ 1 := by cases s.isEnforceComplete <;> decide
  have hbool : (s.isEnforceComplete.toNat != 0) = s.isEnforceComplete := by
    cases s.isEnforceComplete <;> rfl
  -- a list that is not sent is empty
  have hnil : ∀ {α : Type} {l : List α} {c : Prop} [Decidable c], (c ↔ l = []) →
      (if ¬ c then l else []) = l := by
    intro α l c _ hiff
    split
    · rfl
    · next hc => exact (hiff.1 (not_not.1 hc)).symm
  have hvictims : Parses source (optional (¬ Has s.compressedBitmap localSyncedVictimsEmptyMask)
      (deserializeLocalSyncedVictims source) []) s.received.localSyncedVictims
      (if ¬ Has s.compressedBitmap localSyncedVictimsEmptyMask then
        wireVictims s.localSyncedVictims else []) := by
    rw [← hnil s.received.synced_empty]
    exact Parses.optional fun _ => parses_victims source hrange.victims (by omega)
  have hdirinfos : Parses source (optional (¬ Has s.compressedBitmap localBeaconedVictimsEmptyMask)
      (deserializeLocalBeaconedVictims source) []) s.received.localBeaconedVictims
      (if ¬ Has s.compressedBitmap localBeaconedVictimsEmptyMask then
        wireDirinfos s.localBeaconedVictims else []) := by
    rw [← hnil s.received.beaconed_empty]
    exact Parses.optional fun _ => parses_dirinfos source hrange.dirinfos (by omega)
  have hparts := ofParts_received s
  rw [← hbool] at hparts
  rw [wire]
  refine (parses_getLittleEndian source (bitmap_lt (by decide) _)).andThen ?_
  refine Parses.afterOption (bitmapOfNat_toNat _) ?_
  refine (parses_getLittleEndian source hseqnum).andThen ?_
  refine (parses_getLittleEndian source henforce).andThen ?_
  refine (parses_margin source hrange).andThen (hvictims.andThen ?_)
  exact hdirinfos.thenOption hparts

end VictimSyncset

end Victim

end Covered
