import Covered.Victim.SyncsetObjects
import Covered.Victim.SyncsetRoundTrip

/-!
# The objects of well-formed syncsets

`toObject` lays a cacheinfo or a syncset of the model out as an object with a byte for a bitmap. On
such objects the methods of the classes do what the functions of the model do, and abort only where
these do (`dedup_toObject`, `recover_toObject` and so on).
-/

set_option autoImplicit false

namespace Covered.Victim

open Common Cooperation Lib Lib.ByteStream Lib.Checked Lib.SingleFloat KeyedList SyncsetObject
open Option hiding bind_eq_some_iff
open VictimCacheinfo

/-! ## Bitmaps -/

/-- The byte with the given lower bits. -/
def widen (bitmap : BitVec 6) : BitVec 8 := bitmap.setWidth 8

theorem widen_and (a b : BitVec 6) : widen a &&& widen b = widen (a &&& b) :=
  BitVec.setWidth_and.symm

theorem widen_inj {a b : BitVec 6} : widen a = widen b ↔ a = b := by
  constructor
  · intro h
    have hback := congrArg (BitVec.setWidth 6) h
    simpa [widen] using hback
  · exact congrArg widen

theorem widen_and_not (a b : BitVec 6) : widen a &&& ~~~widen b = widen (a &&& ~~~b) := by
  revert a b
  decide +kernel

theorem widen_ne_invalid : ∀ bitmap : BitVec 6, widen bitmap ≠ 0b11111111#8 := by
  decide +kernel

/-- The byte has a mask iff its lower bits have it. -/
theorem hasBits_widen (bitmap mask : BitVec 6) :
    HasBits (widen bitmap) (widen mask) ↔ bitmap &&& mask = mask := by
  rw [HasBits, widen_and, widen_inj]

theorem toNat_widen (bitmap : BitVec 6) : (widen bitmap).toNat = bitmap.toNat := by
  simp [widen]
  omega

theorem ofNat_eq_widen {byte : Nat} {bitmap : BitVec 6} (h : bitmapOfNat 6 byte = some bitmap) :
    BitVec.ofNat 8 byte = widen bitmap := by
  rw [bitmapOfNat] at h
  split at h
  · next hlt =>
    apply BitVec.eq_of_toNat_eq
    rw [toNat_widen, ← some.inj h, BitVec.toNat_ofNat, BitVec.toNat_ofNat]
    omega
  · cases h

/-! ## Cacheinfos -/

namespace VictimCacheinfo

/-- The object with the fields of the cacheinfo. -/
def toObject (v : VictimCacheinfo) : CacheinfoObject where
  dedupBitmap := widen v.dedupBitmap
  key := v.key
  beaconEdgeidx := v.beaconEdgeidx
  objectSize := v.objectSize
  localCachedPopularity := v.localCachedPopularity
  redirectedCachedPopularity := v.redirectedCachedPopularity
  localReward := v.localReward
  redirectedCachedReward := v.redirectedCachedReward

section Methods

variable (v : VictimCacheinfo)

@[simp] theorem key_toObject : v.toObject.key = v.key := rfl

@[simp] theorem checked_toObject {α : Type} (answer : α) :
    v.toObject.checked answer = some answer :=
  if_pos (widen_ne_invalid _)

@[simp] theorem isInvalid_toObject : v.toObject.isInvalid = false :=
  beq_eq_false_iff_ne.2 (widen_ne_invalid _)

theorem hasBits_toObject (mask : BitVec 6) :
    HasBits v.toObject.dedupBitmap (widen mask) ↔ Has v.dedupBitmap mask :=
  hasBits_widen _ _

theorem stale_toObject :
    (v.toObject.dedupBitmap = CacheinfoObject.staleBitmap) ↔ v.dedupBitmap = staleBitmap :=
  widen_inj (b := staleBitmap)

theorem dedupMask_toObject : (v.toObject.dedupBitmap &&& CacheinfoObject.dedupMask =
      CacheinfoObject.completeBitmap &&& CacheinfoObject.dedupMask) ↔
    v.dedupBitmap &&& dedupMask = completeBitmap &&& dedupMask := by
  have hmasked : v.toObject.dedupBitmap &&& CacheinfoObject.dedupMask =
      widen (v.dedupBitmap &&& dedupMask) := widen_and v.dedupBitmap dedupMask
  rw [hmasked]
  exact widen_inj (b := completeBitmap &&& dedupMask)

@[simp] theorem isComplete_toObject : v.toObject.isComplete = some v.isComplete := by
  rw [CacheinfoObject.isComplete, checked_toObject, isComplete]
  simp only [bne, beq_eq_decide, stale_toObject, dedupMask_toObject]

@[simp] theorem isStale_toObject : v.toObject.isStale = some v.isStale := by
  rw [CacheinfoObject.isStale, checked_toObject, isStale]
  simp only [beq_eq_decide, stale_toObject]

@[simp] theorem isDeduped_toObject : v.toObject.isDeduped = some v.isDeduped := by
  rw [CacheinfoObject.isDeduped, checked_toObject, isDeduped]
  simp only [bne, beq_eq_decide, stale_toObject,
    show HasBits v.toObject.dedupBitmap CacheinfoObject.dedupMask ↔ Has v.dedupBitmap dedupMask from
      v.hasBits_toObject dedupMask]

/-- The masks of the four fields. -/
theorem field_toObject : (HasBits v.toObject.dedupBitmap CacheinfoObject.objectSizeDedupMask ↔
      Has v.dedupBitmap objectSizeDedupMask) ∧
    (HasBits v.toObject.dedupBitmap CacheinfoObject.localCachedPopularityDedupMask ↔
      Has v.dedupBitmap localCachedPopularityDedupMask) ∧
    (HasBits v.toObject.dedupBitmap CacheinfoObject.redirectedCachedPopularityDedupMask ↔
      Has v.dedupBitmap redirectedCachedPopularityDedupMask) ∧
    (HasBits v.toObject.dedupBitmap CacheinfoObject.localRewardDedupMask ↔
      Has v.dedupBitmap localRewardDedupMask) :=
  ⟨v.hasBits_toObject objectSizeDedupMask, v.hasBits_toObject localCachedPopularityDedupMask,
    v.hasBits_toObject redirectedCachedPopularityDedupMask, v.hasBits_toObject localRewardDedupMask⟩

@[simp] theorem isFullyDeduped_toObject : v.toObject.isFullyDeduped = some v.isFullyDeduped := by
  rw [CacheinfoObject.isFullyDeduped, checked_toObject, isFullyDeduped]
  simp only [bne, beq_eq_decide, stale_toObject, field_toObject]

@[simp] theorem getKey_toObject : v.toObject.getKey = some v.key := v.checked_toObject _

@[simp] theorem getBeaconEdgeidx_toObject : v.toObject.getBeaconEdgeidx = some v.beaconEdgeidx :=
  v.checked_toObject _

/-- A getter succeeds on the object iff the field is not deduplicated. -/
theorem getField_toObject {α : Type} (mask : BitVec 6) (value : α) :
    v.toObject.getField (widen mask) value =
      some (if ¬ Has v.dedupBitmap mask then some value else none) := by
  rw [CacheinfoObject.getField, checked_toObject]
  simp only [hasBits_toObject]

@[simp] theorem getObjectSize_toObject : v.toObject.getObjectSize = some v.getObjectSize :=
  v.getField_toObject objectSizeDedupMask v.objectSize

@[simp] theorem getLocalCachedPopularity_toObject :
    v.toObject.getLocalCachedPopularity = some v.getLocalCachedPopularity :=
  v.getField_toObject localCachedPopularityDedupMask v.localCachedPopularity

@[simp] theorem getRedirectedCachedPopularity_toObject :
    v.toObject.getRedirectedCachedPopularity = some v.getRedirectedCachedPopularity :=
  v.getField_toObject redirectedCachedPopularityDedupMask v.redirectedCachedPopularity

@[simp] theorem getRedirectedCachedPopularityReward_toObject :
    v.toObject.getRedirectedCachedPopularityReward =
      some v.getRedirectedCachedPopularityReward :=
  v.getField_toObject redirectedCachedPopularityDedupMask v.redirectedCachedReward

@[simp] theorem getLocalReward_toObject : v.toObject.getLocalReward = some v.getLocalReward :=
  v.getField_toObject localRewardDedupMask v.localReward

theorem fieldsSize_toObject : v.toObject.fieldsSize = v.fieldsSize := by
  rw [CacheinfoObject.fieldsSize, fieldsSize]
  simp only [field_toObject]

@[simp] theorem getVictimCacheinfoPayloadSize_toObject :
    v.toObject.getVictimCacheinfoPayloadSize = some v.getVictimCacheinfoPayloadSize := by
  rw [CacheinfoObject.getVictimCacheinfoPayloadSize, checked_toObject, fieldsSize_toObject]
  rfl

@[simp] theorem getSizeForCapacity_toObject :
    v.toObject.getSizeForCapacity = some v.getSizeForCapacity := by
  rw [CacheinfoObject.getSizeForCapacity, checked_toObject, fieldsSize_toObject]
  rfl

@[simp] theorem markStale_toObject : v.toObject.markStale = some v.markStale.toObject :=
  v.checked_toObject _

@[simp] theorem dedupObjectSize_toObject :
    v.toObject.dedupObjectSize = some v.dedupObjectSize.toObject :=
  v.checked_toObject _

@[simp] theorem dedupLocalCachedPopularity_toObject :
    v.toObject.dedupLocalCachedPopularity = some v.dedupLocalCachedPopularity.toObject :=
  v.checked_toObject _

@[simp] theorem dedupRedirectedCachedPopularity_toObject :
    v.toObject.dedupRedirectedCachedPopularity =
      some v.dedupRedirectedCachedPopularity.toObject :=
  v.checked_toObject _

@[simp] theorem dedupLocalReward_toObject :
    v.toObject.dedupLocalReward = some v.dedupLocalReward.toObject :=
  v.checked_toObject _

end Methods

theorem dedupIf_toObject (same : Prop) [Decidable same]
    {drop : CacheinfoObject → Option CacheinfoObject} {drop' : VictimCacheinfo → VictimCacheinfo}
    (hdrop : ∀ v : VictimCacheinfo, drop v.toObject = some (drop' v).toObject)
    (v : VictimCacheinfo) :
    CacheinfoObject.dedupIf same drop v.toObject = some (if same then drop' v else v).toObject := by
  rw [CacheinfoObject.dedupIf]
  split
  · exact hdrop v
  · rfl

/-- Deduplication makes of two objects the object that it makes of the cacheinfos. -/
theorem dedup_toObject (current prev : VictimCacheinfo) :
    CacheinfoObject.dedup current.toObject prev.toObject = (dedup current prev).map toObject := by
  rw [CacheinfoObject.dedup, dedup]
  simp only [isComplete_toObject, bind_eq_bind, bind_some]
  by_cases hcurrent : current.isComplete = true
  · by_cases hprev : prev.isComplete = true
    · simp only [require_bind_of hcurrent, require_bind_of hprev,
        dedupIf_toObject _ dedupObjectSize_toObject,
        dedupIf_toObject _ dedupLocalCachedPopularity_toObject,
        dedupIf_toObject _ dedupRedirectedCachedPopularity_toObject,
        dedupIf_toObject _ dedupLocalReward_toObject,
        getVictimCacheinfoPayloadSize_toObject, bind_some, pure_def, map_some]
      exact congrArg some (apply_ite toObject _ _ _).symm
    · simp only [require_of_not hprev, require_bind_of hcurrent, bind_none, map_none]
  · simp only [require_of_not hcurrent, bind_none, map_none]

theorem recover_toObject (compressed existing : VictimCacheinfo) :
    CacheinfoObject.recover compressed.toObject existing.toObject =
      (recover compressed existing).map toObject := by
  rw [CacheinfoObject.recover, recover]
  simp only [isDeduped_toObject, isFullyDeduped_toObject, isComplete_toObject,
    getObjectSize_toObject, getLocalCachedPopularity_toObject,
    getRedirectedCachedPopularity_toObject, getRedirectedCachedPopularityReward_toObject,
    getLocalReward_toObject, bind_eq_bind, bind_some]
  by_cases hdeduped : compressed.isDeduped = true
  · by_cases hfully : compressed.isFullyDeduped = false
    · by_cases hexisting : existing.isComplete = true
      · -- the recovered object has the bitmap of the existing one
        have hrecovered : ∀ v : CacheinfoObject, v.dedupBitmap = existing.toObject.dedupBitmap →
            v.isComplete = some true := by
          intro v hv
          rw [← hexisting, ← isComplete_toObject, CacheinfoObject.isComplete,
            CacheinfoObject.isComplete, CacheinfoObject.checked, CacheinfoObject.checked, hv]
        simp only [require_bind_of hdeduped, require_bind_of hfully, require_bind_of hexisting,
          hrecovered, bind_some, require_bind_of, pure_def, map_some]
        rfl
      · simp only [require_bind_of hdeduped, require_bind_of hfully, require_of_not hexisting,
          bind_none, map_none]
    · simp only [require_bind_of hdeduped, require_of_not hfully, bind_none,
        map_none]
  · simp only [require_of_not hdeduped, bind_none, map_none]

theorem sortByLocalRewards_toObject (victims : List VictimCacheinfo) :
    CacheinfoObject.sortByLocalRewards (victims.map toObject) =
      (sortByLocalRewards victims).map toObject :=
  (List.map_insertionSort _ _ toObject victims fun _ _ _ _ => Iff.rfl).symm

theorem find_toObject (key : Key) (victims : List VictimCacheinfo) :
    CacheinfoObject.findVictimCacheinfoForKey key (victims.map toObject) =
      some ((findVictimCacheinfoForKey key victims).map toObject) := by
  rw [findVictimCacheinfoForKey]
  induction victims with
  | nil => rfl
  | cons v rest ih =>
    simp only [List.map_cons, CacheinfoObject.findVictimCacheinfoForKey, getKey_toObject, some_bind,
      find_cons]
    split
    · rfl
    · exact ih

/-! ### Bytes -/

section Bytes

variable {S : Type}

theorem serializeTo_toObject (sink : Sink S) (v : VictimCacheinfo) :
    v.toObject.serializeTo sink = v.serializeTo sink := by
  rw [CacheinfoObject.serializeTo, checked_toObject, serializeTo]
  simp only [onlyIf, field_toObject]
  rfl

theorem emits_toObject (sink : Sink S) (v : VictimCacheinfo) :
    Emits sink (v.toObject.serializeTo sink) v.wire := by
  rw [serializeTo_toObject]
  exact v.emits sink

/-- The class accepts every bitmap that is one of a cacheinfo. -/
theorem readBitmap_eq {byte : Nat} {bitmap : { bitmap : BitVec 6 // LegalBitmap bitmap }}
    (h : legalBitmapOfNat byte = some bitmap) :
    CacheinfoObject.readBitmap byte = some (widen bitmap.1) := by
  rw [legalBitmapOfNat] at h
  obtain ⟨b, hb, h⟩ := bind_eq_some_iff.1 h
  have hbitmap : b = bitmap.1 := by
    split at h
    · rw [← some.inj h]
    · cases h
  rw [CacheinfoObject.readBitmap, ofNat_eq_widen hb, hbitmap]
  exact if_pos (widen_ne_invalid _)

/-- The class reads what the model reads, into an object of the same fields. -/
theorem simulates_deserialize (source : Source S) :
    Simulates toObject (deserializeFrom source)
      (CacheinfoObject.deserializeInto source .invalid) := by
  refine (simulates_refl _).andThen fun byte => ?_
  refine (simulates_ofOption fun _ => readBitmap_eq).andThen fun bitmap => ?_
  refine (simulates_refl _).andThen fun key => (simulates_refl _).andThen fun beacon => ?_
  refine (Simulates.optional (not_congr (hasBits_widen _ objectSizeDedupMask).symm)
    (fun _ => simulates_refl _) rfl).andThen fun objectSize => ?_
  refine (Simulates.optional (not_congr (hasBits_widen _ localCachedPopularityDedupMask).symm)
    (fun _ => simulates_refl _) rfl).andThen fun localCachedPopularity => ?_
  refine (Simulates.optional (not_congr (hasBits_widen _ redirectedCachedPopularityDedupMask).symm)
    (fun _ => simulates_refl _) rfl).andThen fun redirectedCachedPopularity => ?_
  refine (Simulates.optional (not_congr (hasBits_widen _ localRewardDedupMask).symm)
    (fun _ => simulates_refl _) rfl).andThen fun localReward => ?_
  exact simulates_pure rfl

/-- From the bytes of an object the class reads the object of what a receiver reads. -/
theorem parses_toObject (source : Source S) {v : VictimCacheinfo} (hrange : v.InRange)
    (hsize : v.getVictimCacheinfoPayloadSize < 2 ^ 32) :
    Parses source (CacheinfoObject.deserializeInto source .invalid) v.received.toObject v.wire :=
  (parses source hrange hsize).simulated (simulates_deserialize source)

theorem inRange_of_toObject {v : VictimCacheinfo} (h : v.toObject.InRange) : v.InRange :=
  ⟨h.beaconEdgeidx, h.objectSize, h.localCachedPopularity, h.redirectedCachedPopularity,
    h.localReward⟩

end Bytes

end VictimCacheinfo

/-! ## Syncsets -/

namespace VictimSyncset

/-- The object with the parts of the syncset. -/
def toObject (s : VictimSyncset) : SyncsetObject where
  compressedBitmap := widen s.compressedBitmap
  seqnum := s.seqnum
  isEnforceComplete := s.isEnforceComplete
  cacheMarginBytes := s.cacheMarginBytes
  cacheMarginDeltaBytes := s.cacheMarginDeltaBytes
  localSyncedVictims := s.localSyncedVictims.map VictimCacheinfo.toObject
  localBeaconedVictims := s.localBeaconedVictims

@[simp] theorem localSyncedVictims_toObject (s : VictimSyncset) :
    s.toObject.localSyncedVictims = s.localSyncedVictims.map VictimCacheinfo.toObject := rfl

@[simp] theorem localBeaconedVictims_toObject (s : VictimSyncset) :
    s.toObject.localBeaconedVictims = s.localBeaconedVictims := rfl

/-- The members of a complete list are complete. -/
structure MembersComplete (s : VictimSyncset) : Prop where
  victims : ¬ s.PartCompressed .localSyncedVictims → ∀ v ∈ s.localSyncedVictims,
    v.isComplete = true
  dirinfos : ¬ s.PartCompressed .localBeaconedVictims → CompleteDirinfos s.localBeaconedVictims

theorem MembersComplete.allComplete {s : VictimSyncset} (h : s.MembersComplete)
    (hcomplete : s.isComplete = true) : s.AllComplete where
  complete := hcomplete
  victims := h.victims ((isComplete_iff s).1 hcomplete _)
  dirinfos := h.dirinfos ((isComplete_iff s).1 hcomplete _)

theorem AllComplete.membersComplete {s : VictimSyncset} (h : s.AllComplete) :
    s.MembersComplete where
  victims := fun _ => h.victims
  dirinfos := fun _ => h.dirinfos

section Methods

variable (s : VictimSyncset)

@[simp] theorem checked_toObject {α : Type} (answer : α) :
    s.toObject.checked answer = some answer :=
  if_pos (widen_ne_invalid _)

theorem hasBits_toObject (mask : BitVec 6) :
    HasBits s.toObject.compressedBitmap (widen mask) ↔ Has s.compressedBitmap mask :=
  hasBits_widen _ _

theorem hasPart_toObject (part : SyncsetPart) :
    HasBits s.toObject.compressedBitmap (widen (compressedMask part)) ↔ s.PartCompressed part :=
  hasBits_widen _ _

/-- A list is marked as empty iff it is. -/
theorem empty_toObject :
    (HasBits s.toObject.compressedBitmap SyncsetObject.localSyncedVictimsEmptyMask ↔
      s.localSyncedVictims = []) ∧
    (HasBits s.toObject.compressedBitmap SyncsetObject.localBeaconedVictimsEmptyMask ↔
      s.localBeaconedVictims = []) :=
  ⟨(s.hasBits_toObject localSyncedVictimsEmptyMask).trans s.synced_empty,
    (s.hasBits_toObject localBeaconedVictimsEmptyMask).trans s.beaconed_empty⟩

@[simp] theorem isComplete_toObject : s.toObject.isComplete = some s.isComplete := by
  have hmasked : s.toObject.compressedBitmap &&& SyncsetObject.compressMask =
      widen (s.compressedBitmap &&& compressMask) := widen_and s.compressedBitmap compressMask
  have hiff : (s.toObject.compressedBitmap &&& SyncsetObject.compressMask =
      SyncsetObject.completeBitmap &&& SyncsetObject.compressMask) ↔
      s.compressedBitmap &&& compressMask = completeBitmap &&& compressMask := by
    rw [hmasked]
    exact widen_inj (b := completeBitmap &&& compressMask)
  rw [SyncsetObject.isComplete, checked_toObject, isComplete]
  simp only [hiff]

theorem isCompressed_widen {o : SyncsetObject} {bitmap : BitVec 6}
    (h : o.compressedBitmap = widen bitmap) :
    o.isCompressed = some (isCompressedBitmap bitmap) := by
  have hpart : ∀ part, HasBits o.compressedBitmap (widen (compressedMask part)) ↔
      HasPart bitmap part := by
    intro part
    rw [h]
    exact hasBits_widen _ _
  have hvalid : o.compressedBitmap ≠ invalidBitmap := by
    rw [h]
    exact widen_ne_invalid _
  rw [SyncsetObject.isCompressed, checked, if_pos hvalid, isCompressedBitmap]
  simp only [← hpart]
  rfl

@[simp] theorem isCompressed_toObject : s.toObject.isCompressed = some s.isCompressed :=
  isCompressed_widen rfl

@[simp] theorem getSeqnum_toObject : s.toObject.getSeqnum = some s.seqnum := s.checked_toObject _

@[simp] theorem getEnforceComplete_toObject :
    s.toObject.getEnforceComplete = some s.isEnforceComplete := s.checked_toObject _

@[simp] theorem setSeqnum_toObject (seqnum : Nat) :
    s.toObject.setSeqnum seqnum = some (s.setSeqnum seqnum).toObject := s.checked_toObject _

@[simp] theorem setEnforceComplete_toObject (isEnforceComplete : Bool) :
    s.toObject.setEnforceComplete isEnforceComplete =
      some (s.setEnforceComplete isEnforceComplete).toObject := s.checked_toObject _

@[simp] theorem getCacheMarginBytesOrDelta_toObject :
    s.toObject.getCacheMarginBytesOrDelta = some s.getCacheMarginBytesOrDelta := by
  rw [SyncsetObject.getCacheMarginBytesOrDelta, checked_toObject, getCacheMarginBytesOrDelta]
  simp only [show HasBits s.toObject.compressedBitmap SyncsetObject.cacheMarginBytesDeltaMask ↔ _
    from s.hasPart_toObject .cacheMarginBytes, PartCompressed, ite_not]
  rfl

end Methods

/-! ### Lists -/

section Lists

variable {s : VictimSyncset} {victims : List VictimCacheinfo} {dirinfos : List (Key × DirinfoSet)}
  (isAssert : Bool)

theorem allCacheinfosComplete_toObject (h : ∀ v ∈ victims, v.isComplete = true) :
    allCacheinfosComplete (victims.map VictimCacheinfo.toObject) = some () := by
  induction victims with
  | nil => rfl
  | cons v rest ih =>
    simp only [List.map_cons, allCacheinfosComplete,
      VictimCacheinfo.isComplete_toObject, some_bind, require_bind (h v List.mem_cons_self)]
    exact ih fun w hw => h w (List.mem_cons_of_mem v hw)

theorem assertAllCacheinfosComplete_toObject (h : ∀ v ∈ victims, v.isComplete = true)
    (hne : victims ≠ []) :
    assertAllCacheinfosComplete isAssert (victims.map VictimCacheinfo.toObject) =
      some () := by
  have hlength : (victims.map VictimCacheinfo.toObject).length > 0 := by
    rw [List.length_map]
    exact List.length_pos_iff.2 hne
  rw [assertAllCacheinfosComplete, require_bind hlength,
    allCacheinfosComplete_toObject h, ite_self]

theorem assertAtLeastOneCacheinfoDeduped_toObject (hne : victims ≠ []) :
    assertAtLeastOneCacheinfoDeduped (victims.map VictimCacheinfo.toObject) =
      some () := by
  apply require_of
  rw [List.length_map]
  exact List.length_pos_iff.2 hne

theorem assertAllDirinfoSetsComplete_eq (h : CompleteDirinfos dirinfos) (hne : dirinfos ≠ []) :
    assertAllDirinfoSetsComplete isAssert dirinfos = some () := by
  have hcomplete : require (∀ pair ∈ dirinfos, pair.2.isComplete = true) = some () := require_of h
  rw [assertAllDirinfoSetsComplete, require_bind (List.length_pos_iff.2 hne),
    hcomplete, ite_self]

theorem assertAtLeastOneDirinfoSetCompressed_eq (hne : dirinfos ≠ []) :
    assertAtLeastOneDirinfoSetCompressed dirinfos = some () :=
  require_of (List.length_pos_iff.2 hne)

section Complete

variable (h : s.MembersComplete)
include h

theorem checkLocalSyncedVictims_toObject :
    s.toObject.checkLocalSyncedVictims isAssert = some () := by
  rw [SyncsetObject.checkLocalSyncedVictims, SyncsetObject.checkList]
  by_cases hempty : s.localSyncedVictims = []
  · rw [if_pos (s.empty_toObject.1.2 hempty)]
  · rw [if_neg fun hbits => hempty (s.empty_toObject.1.1 hbits)]
    split
    · exact assertAtLeastOneCacheinfoDeduped_toObject hempty
    · next hbits =>
      refine assertAllCacheinfosComplete_toObject isAssert (h.victims fun hpart => hbits ?_) hempty
      exact (s.hasPart_toObject .localSyncedVictims).2 hpart

theorem checkLocalBeaconedVictims_toObject :
    s.toObject.checkLocalBeaconedVictims isAssert = some () := by
  rw [SyncsetObject.checkLocalBeaconedVictims, SyncsetObject.checkList]
  by_cases hempty : s.localBeaconedVictims = []
  · rw [if_pos (s.empty_toObject.2.2 hempty)]
  · rw [if_neg fun hbits => hempty (s.empty_toObject.2.1 hbits)]
    split
    · exact assertAtLeastOneDirinfoSetCompressed_eq hempty
    · next hbits =>
      refine assertAllDirinfoSetsComplete_eq isAssert (h.dirinfos fun hpart => hbits ?_) hempty
      exact (s.hasPart_toObject .localBeaconedVictims).2 hpart

theorem getLocalSyncedVictimsPtr_toObject :
    s.toObject.getLocalSyncedVictimsPtr isAssert =
      some (s.localSyncedVictims.map VictimCacheinfo.toObject, s.getLocalSyncedVictims.2) := by
  have hform : decide (¬ HasBits s.toObject.compressedBitmap
      SyncsetObject.localSyncedVictimsDedupMask) = s.getLocalSyncedVictims.2 :=
    decide_eq_decide.2 (not_congr (s.hasPart_toObject .localSyncedVictims))
  rw [getLocalSyncedVictimsPtr, checked_toObject,
    checkLocalSyncedVictims_toObject isAssert h, hform]
  rfl

theorem getLocalSyncedVictims_toObject :
    s.toObject.getLocalSyncedVictims isAssert =
      some (s.localSyncedVictims.map VictimCacheinfo.toObject, s.getLocalSyncedVictims.2) := by
  have hlist : (if HasBits s.toObject.compressedBitmap SyncsetObject.localSyncedVictimsEmptyMask
      then [] else s.toObject.localSyncedVictims) =
      s.localSyncedVictims.map VictimCacheinfo.toObject := by
    split
    · next hbits => rw [s.empty_toObject.1.1 hbits, List.map_nil]
    · rfl
  rw [← getLocalSyncedVictimsPtr_toObject isAssert h, SyncsetObject.getLocalSyncedVictims,
    getLocalSyncedVictimsPtr, hlist]
  rfl

theorem getLocalBeaconedVictimsPtr_toObject :
    s.toObject.getLocalBeaconedVictimsPtr isAssert = some s.getLocalBeaconedVictims := by
  have hform : decide (¬ HasBits s.toObject.compressedBitmap
      SyncsetObject.localBeaconedVictimsDedupMask) = s.getLocalBeaconedVictims.2 :=
    decide_eq_decide.2 (not_congr (s.hasPart_toObject .localBeaconedVictims))
  rw [getLocalBeaconedVictimsPtr, checked_toObject,
    checkLocalBeaconedVictims_toObject isAssert h, hform]
  rfl

theorem getLocalBeaconedVictims_toObject :
    s.toObject.getLocalBeaconedVictims isAssert = some s.getLocalBeaconedVictims := by
  have hlist : (if HasBits s.toObject.compressedBitmap SyncsetObject.localBeaconedVictimsEmptyMask
      then [] else s.toObject.localBeaconedVictims) = s.toObject.localBeaconedVictims := by
    split
    · next hbits => exact (s.empty_toObject.2.1 hbits).symm
    · rfl
  rw [← getLocalBeaconedVictimsPtr_toObject isAssert h, SyncsetObject.getLocalBeaconedVictims,
    getLocalBeaconedVictimsPtr, hlist]

end Complete

end Lists

/-! ### Setters -/

section Setters

variable (s : VictimSyncset) (isAssert : Bool)

/-- The object with another bitmap. -/
def toObjectWith (bitmap : BitVec 6) : SyncsetObject :=
  { s.toObject with compressedBitmap := widen bitmap }

theorem removeBits_toObject (part : SyncsetPart) :
    s.toObject.removeBits (widen (compressedMask part)) =
      some (s.toObjectWith (markComplete part s.compressedBitmap)) := by
  have hremoved : s.toObject.compressedBitmap &&&
      ~~~(widen (compressedMask part) &&& ~~~SyncsetObject.compressMask) =
      widen (s.compressedBitmap &&& ~~~(compressedMask part &&& ~~~compressMask)) := by
    rw [show SyncsetObject.compressMask = widen compressMask from rfl, widen_and_not]
    exact widen_and_not _ _
  have hcompressed : SyncsetObject.isCompressed { s.toObject with
      compressedBitmap :=
        widen (s.compressedBitmap &&& ~~~(compressedMask part &&& ~~~compressMask)) } =
      some (isCompressedBitmap
        (s.compressedBitmap &&& ~~~(compressedMask part &&& ~~~compressMask))) :=
    isCompressed_widen rfl
  rw [removeBits, checked_toObject, hremoved, markComplete]
  simp only [some_bind, hcompressed, pure_def]
  split
  · rfl
  · -- the lowest bit goes with the last compressed part
    rw [show SyncsetObject.compressMask = widen compressMask from rfl, widen_and_not]
    rfl

theorem addBits_toObject (part : SyncsetPart) :
    s.toObject.addBits (widen (compressedMask part)) =
      some (s.toObjectWith (markCompressed part s.compressedBitmap)) :=
  s.checked_toObject _

theorem emptyBits_widen {α : Type} (mask bitmap : BitVec 6) (l : List α) :
    emptyBits (widen mask) l (widen bitmap) =
      widen (markEmpty mask l.isEmpty bitmap) := by
  cases l with
  | nil => rfl
  | cons a rest => exact widen_and_not bitmap mask

theorem emptyBits_map (mask bitmap : BitVec 6) (victims : List VictimCacheinfo) :
    emptyBits (widen mask) (victims.map VictimCacheinfo.toObject) (widen bitmap) =
      widen (markEmpty mask victims.isEmpty bitmap) := by
  rw [emptyBits_widen, List.isEmpty_map]

theorem checkIfNonempty_eq {α : Type} {l : List α} {check : List α → Option Unit}
    (h : l ≠ [] → check l = some ()) : checkIfNonempty l check = some () := by
  rw [checkIfNonempty]
  split
  · rfl
  · next hlength => exact h fun hnil => hlength (List.length_eq_zero_iff.2 hnil)

variable {victims : List VictimCacheinfo} {dirinfos : List (Key × DirinfoSet)}

@[simp] theorem setCacheMarginBytes_toObject (cacheMarginBytes : Nat) :
    s.toObject.setCacheMarginBytes cacheMarginBytes =
      some (s.setCacheMarginBytes cacheMarginBytes).toObject := by
  rw [SyncsetObject.setCacheMarginBytes, show SyncsetObject.cacheMarginBytesDeltaMask =
    widen (compressedMask .cacheMarginBytes) from rfl, removeBits_toObject]
  rfl

@[simp] theorem setCacheMarginDeltaBytes_toObject (delta : Int) :
    s.toObject.setCacheMarginDeltaBytes delta =
      some (s.setCacheMarginDeltaBytes delta).toObject := by
  rw [SyncsetObject.setCacheMarginDeltaBytes, show SyncsetObject.cacheMarginBytesDeltaMask =
    widen (compressedMask .cacheMarginBytes) from rfl, addBits_toObject]
  rfl

theorem storeLocalSyncedVictims_toObjectWith (bitmap : BitVec 6)
    {check : List CacheinfoObject → Option Unit}
    (h : victims ≠ [] → check (victims.map VictimCacheinfo.toObject) = some ()) :
    (s.toObjectWith bitmap).storeLocalSyncedVictims (victims.map VictimCacheinfo.toObject) check =
      some { s.toObjectWith (markEmpty localSyncedVictimsEmptyMask victims.isEmpty bitmap) with
        localSyncedVictims := victims.map VictimCacheinfo.toObject } := by
  have hcheck : checkIfNonempty (victims.map VictimCacheinfo.toObject) check =
      some () := checkIfNonempty_eq fun hne => h fun hnil => hne (by rw [hnil, List.map_nil])
  have hbits := emptyBits_map localSyncedVictimsEmptyMask bitmap victims
  rw [storeLocalSyncedVictims, hcheck, toObjectWith, toObjectWith, ← hbits]
  rfl

theorem storeLocalBeaconedVictims_toObjectWith (bitmap : BitVec 6)
    {check : List (Key × DirinfoSet) → Option Unit} (h : dirinfos ≠ [] → check dirinfos = some ()) :
    (s.toObjectWith bitmap).storeLocalBeaconedVictims dirinfos check =
      some { s.toObjectWith (markEmpty localBeaconedVictimsEmptyMask dirinfos.isEmpty bitmap) with
        localBeaconedVictims := dirinfos } := by
  have hbits := emptyBits_widen localBeaconedVictimsEmptyMask bitmap dirinfos
  rw [storeLocalBeaconedVictims, checkIfNonempty_eq h, toObjectWith, toObjectWith,
    ← hbits]
  rfl

theorem setLocalSyncedVictims_toObject (h : ∀ v ∈ victims, v.isComplete = true) :
    s.toObject.setLocalSyncedVictims isAssert (victims.map VictimCacheinfo.toObject) =
      some (s.setLocalSyncedVictims victims).toObject := by
  rw [SyncsetObject.setLocalSyncedVictims,
    show SyncsetObject.localSyncedVictimsDedupMask =
      widen (compressedMask .localSyncedVictims) from rfl,
    removeBits_toObject, some_bind,
    storeLocalSyncedVictims_toObjectWith _ _ (assertAllCacheinfosComplete_toObject isAssert h)]
  rfl

theorem setLocalSyncedVictimsForCompress_toObject (victims : List VictimCacheinfo) :
    s.toObject.setLocalSyncedVictimsForCompress (victims.map VictimCacheinfo.toObject) =
      some (s.setLocalSyncedVictimsForCompress victims).toObject := by
  rw [SyncsetObject.setLocalSyncedVictimsForCompress,
    show SyncsetObject.localSyncedVictimsDedupMask =
      widen (compressedMask .localSyncedVictims) from rfl,
    addBits_toObject, some_bind,
    storeLocalSyncedVictims_toObjectWith _ _ assertAtLeastOneCacheinfoDeduped_toObject]
  rfl

theorem setLocalBeaconedVictims_toObject (h : CompleteDirinfos dirinfos) :
    s.toObject.setLocalBeaconedVictims isAssert dirinfos =
      some (s.setLocalBeaconedVictims dirinfos).toObject := by
  rw [SyncsetObject.setLocalBeaconedVictims,
    show SyncsetObject.localBeaconedVictimsDedupMask =
      widen (compressedMask .localBeaconedVictims) from rfl,
    removeBits_toObject, some_bind,
    storeLocalBeaconedVictims_toObjectWith _ _ (assertAllDirinfoSetsComplete_eq isAssert h)]
  rfl

theorem setLocalBeaconedVictimsForCompress_toObject (dirinfos : List (Key × DirinfoSet)) :
    s.toObject.setLocalBeaconedVictimsForCompress dirinfos =
      some (s.setLocalBeaconedVictimsForCompress dirinfos).toObject := by
  rw [SyncsetObject.setLocalBeaconedVictimsForCompress,
    show SyncsetObject.localBeaconedVictimsDedupMask =
      widen (compressedMask .localBeaconedVictims) from rfl,
    addBits_toObject, some_bind,
    storeLocalBeaconedVictims_toObjectWith _ _ assertAtLeastOneDirinfoSetCompressed_eq]
  rfl

theorem remove_absent : ∀ bitmap : BitVec 6, ¬ Has bitmap localBeaconedVictimsEmptyMask →
    bitmap &&& ~~~localBeaconedVictimsEmptyMask = bitmap := by
  decide +kernel

theorem push_toObject (key : Key) (dirinfoSet : DirinfoSet) :
    s.toObject.pushLocalBeaconedVictimForComplete key dirinfoSet =
      (s.pushLocalBeaconedVictimForComplete key dirinfoSet).map toObject := by
  have hbits : (if s.localBeaconedVictims.length = 0 then
      s.toObject.compressedBitmap &&& ~~~SyncsetObject.localBeaconedVictimsEmptyMask
      else s.toObject.compressedBitmap) =
      widen (markEmpty localBeaconedVictimsEmptyMask false s.compressedBitmap) := by
    split
    · exact widen_and_not s.compressedBitmap localBeaconedVictimsEmptyMask
    · next hlength =>
      have habsent : ¬ Has s.compressedBitmap localBeaconedVictimsEmptyMask := fun hempty =>
        hlength (List.length_eq_zero_iff.2 (s.beaconed_empty.1 hempty))
      rw [markEmpty, if_neg Bool.false_ne_true, remove_absent _ habsent]
      rfl
  rw [SyncsetObject.pushLocalBeaconedVictimForComplete, checked_toObject, isComplete_toObject,
    pushLocalBeaconedVictimForComplete]
  simp only [bind_eq_bind, bind_some]
  by_cases hcomplete : s.isComplete = true
  · rw [require_bind_of hcomplete, require_bind_of hcomplete]
    simp only [pure_def, map_some, some.injEq]
    rw [localBeaconedVictims_toObject, hbits]
    rfl
  · rw [require_of_not hcomplete, bind_none, bind_none, map_none]

end Setters

/-! ### Construction -/

/-- The syncset that says that nothing changed. -/
def fullCompressed (seqnum : Nat) (isEnforceComplete : Bool) : VictimSyncset where
  compressedBitmap := 0b111111#6
  seqnum := seqnum
  isEnforceComplete := isEnforceComplete
  cacheMarginBytes := 0
  cacheMarginDeltaBytes := 0
  localSyncedVictims := []
  localBeaconedVictims := []
  bitmap_wf := by decide
  synced_empty := iff_of_true (by decide) rfl
  beaconed_empty := iff_of_true (by decide) rfl

theorem membersComplete_fullCompressed (seqnum : Nat) (isEnforceComplete : Bool) :
    (fullCompressed seqnum isEnforceComplete).MembersComplete where
  victims _ _ hv := absurd hv List.not_mem_nil
  dirinfos _ _ hpair := absurd hpair List.not_mem_nil

/-- The bitmap of a new complete syncset, given which of its lists are empty. -/
theorem createBits (isSyncedEmpty isBeaconedEmpty : Bool) :
    (let bitmap := if isSyncedEmpty = true then
        SyncsetObject.completeBitmap ||| SyncsetObject.localSyncedVictimsEmptyMask
      else SyncsetObject.completeBitmap
     if isBeaconedEmpty = true then bitmap ||| SyncsetObject.localBeaconedVictimsEmptyMask
     else bitmap) =
      widen (markEmpty localBeaconedVictimsEmptyMask isBeaconedEmpty
        (markEmpty localSyncedVictimsEmptyMask isSyncedEmpty completeBitmap)) := by
  revert isSyncedEmpty isBeaconedEmpty
  decide

theorem create_toObject (isAssert : Bool) (seqnum : Nat) (isEnforceComplete : Bool)
    (cacheMarginBytes : Nat) {victims : List VictimCacheinfo} {dirinfos : List (Key × DirinfoSet)}
    (hvictims : ∀ v ∈ victims, v.isComplete = true) (hdirinfos : CompleteDirinfos dirinfos) :
    SyncsetObject.create isAssert seqnum isEnforceComplete cacheMarginBytes
      (victims.map VictimCacheinfo.toObject) dirinfos =
      some (create seqnum isEnforceComplete cacheMarginBytes victims dirinfos).toObject := by
  have hchecked : SyncsetObject.checkIfNonempty (victims.map VictimCacheinfo.toObject)
      (SyncsetObject.assertAllCacheinfosComplete isAssert) = some () :=
    checkIfNonempty_eq fun hne => assertAllCacheinfosComplete_toObject isAssert hvictims
      fun hnil => hne (by rw [hnil, List.map_nil])
  have hlength : ∀ {α : Type} (l : List α), l.length = 0 ↔ l.isEmpty = true := fun l =>
    List.length_eq_zero_iff.trans List.isEmpty_iff.symm
  have hbits := createBits victims.isEmpty dirinfos.isEmpty
  rw [SyncsetObject.create, hchecked,
    checkIfNonempty_eq (assertAllDirinfoSetsComplete_eq isAssert hdirinfos), toObject, create,
    ← hbits]
  simp only [List.length_map, hlength]
  rfl

/-! ### Sizes -/

section Sizes

variable (s : VictimSyncset)

theorem totalVictimSize_toObject {size : CacheinfoObject → Option Nat}
    {size' : VictimCacheinfo → Nat} (h : ∀ v : VictimCacheinfo, size v.toObject = some (size' v))
    (victims : List VictimCacheinfo) :
    SyncsetObject.totalVictimSize size (victims.map VictimCacheinfo.toObject) =
      some (victims.map size').sum := by
  induction victims with
  | nil => rfl
  | cons v rest ih =>
    simp only [List.map_cons, SyncsetObject.totalVictimSize, h, ih, some_bind, pure_def,
      List.sum_cons]

theorem listSize_toObject {α : Type} {mask : BitVec 8} {l : List α} {size : Nat}
    (h : HasBits s.toObject.compressedBitmap mask ↔ l = []) :
    s.toObject.listSize mask l (some size) = some (if l = [] then 0 else size) := by
  rw [listSize]
  by_cases hl : l = []
  · rw [if_pos (h.2 hl), if_pos hl]
  · rw [if_neg fun hbits => hl (h.1 hbits), if_neg hl, require_bind (List.length_pos_iff.2 hl)]

theorem marginSize_toObject : s.toObject.marginSize =
    if HasPart s.compressedBitmap .cacheMarginBytes then 4 else 8 := by
  rw [marginSize, ite_not]
  exact if_congr (s.hasPart_toObject .cacheMarginBytes) rfl rfl

theorem synced_nil_toObject : HasBits s.toObject.compressedBitmap
    SyncsetObject.localSyncedVictimsEmptyMask ↔
      s.localSyncedVictims.map VictimCacheinfo.toObject = [] :=
  s.empty_toObject.1.trans List.map_eq_nil_iff.symm

@[simp] theorem getVictimSyncsetPayloadSize_toObject :
    s.toObject.getVictimSyncsetPayloadSize = some s.getVictimSyncsetPayloadSize := by
  rw [SyncsetObject.getVictimSyncsetPayloadSize, localSyncedVictims_toObject,
    localBeaconedVictims_toObject,
    totalVictimSize_toObject VictimCacheinfo.getVictimCacheinfoPayloadSize_toObject,
    map_some, listSize_toObject s s.synced_nil_toObject,
    listSize_toObject s s.empty_toObject.2, marginSize_toObject]
  simp only [some_bind, pure_def, List.map_eq_nil_iff]
  rfl

/-- The sizes of no elements add up to nothing, with or without the check of the bitmap. -/
theorem ite_nil_sum {α : Type} (l : List α) (size : α → Nat) :
    (if l = [] then 0 else (l.map size).sum) = (l.map size).sum := by
  split
  · next hl => rw [hl, List.map_nil, List.sum_nil]
  · rfl

@[simp] theorem getSizeForCapacity_toObject :
    s.toObject.getSizeForCapacity = some s.getSizeForCapacity := by
  rw [SyncsetObject.getSizeForCapacity, localSyncedVictims_toObject,
    localBeaconedVictims_toObject,
    totalVictimSize_toObject VictimCacheinfo.getSizeForCapacity_toObject,
    listSize_toObject s s.synced_nil_toObject, listSize_toObject s s.empty_toObject.2,
    marginSize_toObject]
  simp only [some_bind, pure_def, List.map_eq_nil_iff, ite_nil_sum]
  rfl

end Sizes

/-! ### Bytes -/

section Bytes

variable {S : Type}

theorem serializeTo_toObject (sink : Sink S) (s : VictimSyncset) :
    s.toObject.serializeTo sink = s.serializeTo sink := by
  rw [SyncsetObject.serializeTo, checked_toObject, localSyncedVictims_toObject, List.length_map,
    writeMany_map, serializeTo]
  simp only [onlyIf, VictimCacheinfo.serializeTo_toObject,
    show HasBits s.toObject.compressedBitmap SyncsetObject.cacheMarginBytesDeltaMask ↔ _
      from s.hasPart_toObject .cacheMarginBytes, s.empty_toObject.1, s.empty_toObject.2,
    s.synced_empty, s.beaconed_empty, PartCompressed]
  rfl

theorem emits_toObject (sink : Sink S) (s : VictimSyncset) :
    Emits sink (s.toObject.serializeTo sink) s.wire := by
  rw [serializeTo_toObject]
  exact s.emits sink

theorem simulates_deserializeVictim (source : Source S) :
    Simulates VictimCacheinfo.toObject (VictimCacheinfo.deserializeFrom source)
      (deserializeVictim source) :=
  (simulates_deserialize source).thenCheck fun v =>
    if_pos v.isInvalid_toObject

theorem simulates_deserializeCacheMargin (source : Source S) (bitmap : BitVec 6) :
    Simulates id (deserializeCacheMargin source bitmap)
      (deserializeCacheMarginInto source (widen bitmap) .invalid) := by
  have hiff : HasBits (widen bitmap) SyncsetObject.cacheMarginBytesDeltaMask ↔
      HasPart bitmap .cacheMarginBytes := hasBits_widen _ cacheMarginBytesDeltaMask
  rw [deserializeCacheMargin, deserializeCacheMarginInto]
  by_cases hpart : HasPart bitmap .cacheMarginBytes
  · rw [if_neg (not_not.2 hpart), if_neg (not_not.2 (hiff.2 hpart))]
    exact (simulates_refl _).andThen fun delta => simulates_pure rfl
  · rw [if_pos hpart, if_pos fun hbits => hpart (hiff.1 hbits)]
    exact (simulates_refl _).andThen fun bytes => simulates_pure rfl

/-- The class reads what the model reads, into an object of the same parts. -/
theorem simulates_deserialize (source : Source S) :
    Simulates toObject (deserializeFrom source)
      (deserializeInto source .invalid) := by
  refine (simulates_refl _).andThen fun byte => ?_
  have hread : ∀ bitmap, bitmapOfNat 6 byte = some bitmap →
      readBitmap byte = some (widen bitmap) := by
    intro bitmap hbitmap
    rw [readBitmap, ofNat_eq_widen hbitmap]
    exact if_pos (widen_ne_invalid _)
  refine (simulates_ofOption hread).andThen fun bitmap => ?_
  refine (simulates_refl _).andThen fun seqnum => (simulates_refl _).andThen fun enforce => ?_
  refine (simulates_deserializeCacheMargin source bitmap).andThen fun margin => ?_
  refine (Simulates.optional (not_congr (hasBits_widen _ localSyncedVictimsEmptyMask).symm)
    (fun _ => (simulates_refl _).andThen fun n => (simulates_deserializeVictim source).readMany n)
    rfl).andThen fun victims => ?_
  refine (Simulates.optional (not_congr (hasBits_widen _ localBeaconedVictimsEmptyMask).symm)
    (fun _ => simulates_refl _) rfl).andThen fun dirinfos => ?_
  refine simulates_ofOption_pure fun s hs => ?_
  rw [ofParts] at hs
  split at hs
  · cases hs
    rfl
  · cases hs

theorem parses_toObject (source : Source S) {s : VictimSyncset} (hrange : s.InRange) :
    Parses source (deserializeInto source .invalid) s.received.toObject s.wire :=
  (parses source hrange).simulated (simulates_deserialize source)

theorem inRange_of_toObject {s : VictimSyncset} (h : s.toObject.InRange)
    (hsize : s.getVictimSyncsetPayloadSize < 2 ^ 32) : s.InRange where
  seqnum := h.seqnum
  cacheMarginBytes := h.cacheMarginBytes
  cacheMarginDeltaBytes := h.cacheMarginDeltaBytes
  victims _ hv := VictimCacheinfo.inRange_of_toObject (h.victims _ (List.mem_map_of_mem hv))
  dirinfos := h.dirinfos
  payloadSize := hsize

end Bytes

/-! ### Compression -/

section Compression

variable (isAssert : Bool)

theorem compressVictim_toObject (prev : List VictimCacheinfo) (v : VictimCacheinfo) :
    SyncsetObject.compressVictim (prev.map VictimCacheinfo.toObject) v.toObject =
      (compressVictim prev v).map (Option.map VictimCacheinfo.toObject) := by
  rw [SyncsetObject.compressVictim, getKey_toObject, some_bind,
    find_toObject, some_bind, compressVictim]
  cases findVictimCacheinfoForKey v.key prev with
  | none =>
    simp only [map_none, messageAbout, VictimCacheinfo.isComplete_toObject,
      some_bind]
    exact require_bind_map_eq fun _ => rfl
  | some p =>
    simp only [map_some, messageAbout, bind_eq_bind]
    refine bind_map_eq (dedup_toObject v p) fun d _ => ?_
    rw [isFullyDeduped_toObject, bind_some, pure_def,
      pure_def, map_some]
    split <;> rfl

theorem staleVictim_toObject (current : List VictimCacheinfo) (p : VictimCacheinfo) :
    staleVictim (current.map VictimCacheinfo.toObject) p.toObject =
      some (if (findVictimCacheinfoForKey p.key current).isNone = true then
        some p.markStale.toObject else none) := by
  rw [staleVictim, getKey_toObject, some_bind,
    find_toObject, some_bind]
  cases findVictimCacheinfoForKey p.key current with
  | none =>
    rw [map_none, staleMessageAbout, markStale_toObject]
    rfl
  | some v => rfl

theorem staleVictims_toObject (current prev : List VictimCacheinfo) :
    collect (staleVictim (current.map VictimCacheinfo.toObject))
      (prev.map VictimCacheinfo.toObject) =
      some ((staleVictims current prev).map VictimCacheinfo.toObject) := by
  rw [staleVictims]
  induction prev with
  | nil => rfl
  | cons p rest ih =>
    rw [List.map_cons, collect, ih, staleVictim_toObject, List.filter_cons]
    simp only [some_bind, pure_def]
    split <;> rfl

theorem fst_getLocalSyncedVictims (s : VictimSyncset) :
    s.getLocalSyncedVictims.1 = s.localSyncedVictims := rfl

variable {current prev : VictimSyncset}

theorem compressLocalSyncedVictims_toObject (s : VictimSyncset) (hcurrent : current.MembersComplete)
    (hprev : prev.MembersComplete) :
    SyncsetObject.compressLocalSyncedVictims isAssert s.toObject current.toObject prev.toObject =
      (compressLocalSyncedVictims s current prev).map toObject := by
  rw [SyncsetObject.compressLocalSyncedVictims, compressLocalSyncedVictims,
    getLocalSyncedVictimsPtr_toObject isAssert hcurrent,
    getLocalSyncedVictimsPtr_toObject isAssert hprev]
  simp only [Option.bind_eq_bind, bind_some]
  refine require_bind_map_eq fun _ => require_bind_map_eq fun _ => ?_
  refine bind_map_eq (collect_map _ fun v _ => compressVictim_toObject _ v)
    fun messages _ => ?_
  rw [staleVictims_toObject, bind_some, ← List.map_append,
    totalVictimSize_toObject VictimCacheinfo.getVictimCacheinfoPayloadSize_toObject,
    bind_some,
    totalVictimSize_toObject VictimCacheinfo.getVictimCacheinfoPayloadSize_toObject,
    bind_some, pure_def, map_some, fst_getLocalSyncedVictims,
    fst_getLocalSyncedVictims]
  split
  · next hle => rw [if_pos (show totalVictimSize _ ≤ totalVictimSize _ from hle)]
  · next hgt =>
    rw [if_neg (show ¬ totalVictimSize _ ≤ totalVictimSize _ from hgt)]
    exact setLocalSyncedVictimsForCompress_toObject s _

theorem compressLocalBeaconedVictims_toObject (s : VictimSyncset)
    (hcurrent : current.MembersComplete) (hprev : prev.MembersComplete) :
    SyncsetObject.compressLocalBeaconedVictims isAssert s.toObject current.toObject
      prev.toObject = (compressLocalBeaconedVictims s current prev).map toObject := by
  rw [SyncsetObject.compressLocalBeaconedVictims, compressLocalBeaconedVictims,
    getLocalBeaconedVictimsPtr_toObject isAssert hcurrent,
    getLocalBeaconedVictimsPtr_toObject isAssert hprev]
  simp only [some_bind]
  refine require_bind_map_eq fun _ => require_bind_map_eq fun _ => ?_
  refine bind_map_same fun messages _ => ?_
  rw [pure_def, map_some]
  split
  · rfl
  · exact setLocalBeaconedVictimsForCompress_toObject s _

theorem compressCacheMarginBytes_toObject (s current prev : VictimSyncset) :
    SyncsetObject.compressCacheMarginBytes s.toObject current.toObject prev.toObject =
      some (compressCacheMarginBytes s current prev).toObject := by
  rw [SyncsetObject.compressCacheMarginBytes, compressCacheMarginBytes,
    show current.toObject.cacheMarginBytes = current.cacheMarginBytes from rfl,
    show prev.toObject.cacheMarginBytes = prev.cacheMarginBytes from rfl]
  cases cacheMarginDelta current.cacheMarginBytes prev.cacheMarginBytes with
  | none => rfl
  | some delta => exact s.setCacheMarginDeltaBytes_toObject delta

/-- Compression makes of two objects the object that it makes of the syncsets. -/
theorem compress_toObject (hcurrent : current.MembersComplete) (hprev : prev.MembersComplete) :
    SyncsetObject.compress isAssert current.toObject prev.toObject =
      (compress current prev).map toObject := by
  rw [SyncsetObject.compress, compress]
  simp only [isComplete_toObject, getSeqnum_toObject, bind_eq_bind, bind_some]
  refine require_bind_map_eq fun _ => require_bind_map_eq fun _ => ?_
  refine bind_map_same fun next _ => require_bind_map_eq fun _ => ?_
  rw [compressCacheMarginBytes_toObject, bind_some]
  refine bind_map_eq (compressLocalSyncedVictims_toObject isAssert _ hcurrent hprev)
    fun s₂ _ => ?_
  refine bind_map_eq (compressLocalBeaconedVictims_toObject isAssert s₂ hcurrent hprev)
    fun s₃ _ => ?_
  rw [getVictimSyncsetPayloadSize_toObject, bind_some,
    getVictimSyncsetPayloadSize_toObject, bind_some, pure_def, pure_def,
    map_some]
  exact congrArg some (apply_ite toObject _ _ _).symm

end Compression

/-! ### Recovery -/

section Recovery

variable (isAssert : Bool)

theorem applyVictim_toObject (victims : List VictimCacheinfo) (message : VictimCacheinfo) :
    SyncsetObject.applyVictim (victims.map VictimCacheinfo.toObject) message.toObject =
      (applyVictim victims message).map (List.map VictimCacheinfo.toObject) := by
  rw [SyncsetObject.applyVictim, applyVictim]
  simp only [getKey_toObject, find_toObject,
    VictimCacheinfo.isComplete_toObject, isStale_toObject,
    isFullyDeduped_toObject, some_bind]
  cases findVictimCacheinfoForKey message.key victims with
  | none =>
    rw [map_none, applyMessage]
    split
    · rw [map_some, List.map_append]
      rfl
    · split
      · rfl
      · exact require_bind_map_eq fun _ => rfl
  | some existing =>
    rw [map_some, applyMessage]
    split
    · rw [key_toObject, replace_map]
      rfl
    · split
      · rw [key_toObject, erase_map]
        rfl
      · refine require_bind_map_eq fun _ => ?_
        refine bind_map_eq (recover_toObject message existing) fun r _ => ?_
        rw [key_toObject, replace_map]
        rfl

/-- A message leaves complete victims complete. -/
theorem complete_applyVictim {known known' : List VictimCacheinfo} {message : VictimCacheinfo}
    (hknown : ∀ v ∈ known, v.isComplete = true) (h : applyVictim known message = some known') :
    ∀ v ∈ known', v.isComplete = true := by
  rw [applyVictim] at h
  split at h
  · split at h
    · next hcomplete =>
      cases h
      intro v hv
      rcases List.mem_append.1 hv with hv | hv
      · exact hknown v hv
      · rw [List.mem_singleton.1 hv]
        exact hcomplete
    · split at h
      · cases h
        exact hknown
      · rw [require_bind_iff] at h
        cases h.2
        exact hknown
  · have replaced : ∀ w : VictimCacheinfo, w.isComplete = true →
        ∀ v ∈ replace key message.key w known, v.isComplete = true := by
      intro w hw v hv
      rcases mem_replace hv with rfl | hv
      · exact hw
      · exact hknown v hv
    split at h
    · next hcomplete =>
      cases h
      exact replaced message hcomplete
    · split at h
      · cases h
        exact fun v hv => hknown v (erase_sublist.subset hv)
      · rw [require_bind_iff] at h
        obtain ⟨r, hr, h⟩ := bind_eq_some_iff.1 h.2
        cases h
        exact replaced r (isComplete_recover hr)

theorem complete_applyVictims {known known' messages : List VictimCacheinfo}
    (hknown : ∀ v ∈ known, v.isComplete = true) (h : applyVictims known messages = some known') :
    ∀ v ∈ known', v.isComplete = true :=
  applyAll_invariant (P := fun known => ∀ v ∈ known, v.isComplete = true)
    (fun _ _ _ _ hknown => complete_applyVictim hknown) hknown h

/-- A message that was applied to dirinfo sets is one that can be applied. -/
theorem applicable_of_applyDirinfo {known known' : List (Key × DirinfoSet)}
    {message : Key × DirinfoSet} (h : applyDirinfo known message = some known') :
    ApplicableDirinfo message := by
  rw [applyDirinfo] at h
  by_cases hcomplete : message.2.isComplete = true
  · exact .inl hcomplete
  · simp only [if_neg hcomplete] at h
    split at h
    · exact .inr (require_bind_iff.1 h).1
    · exact .inr (require_bind_iff.1 h).1

theorem complete_applyDirinfos {known known' messages : List (Key × DirinfoSet)}
    (hknown : CompleteDirinfos known) (h : applyDirinfos known messages = some known') :
    CompleteDirinfos known' := by
  refine applyAll_invariant (P := CompleteDirinfos) ?_ hknown h
  intro l m l' _ hl hm
  obtain ⟨l₁, h₁, hcomplete, -⟩ := applyDirinfo_spec hl (applicable_of_applyDirinfo hm)
  rw [hm, some.injEq] at h₁
  rw [h₁]
  exact hcomplete

theorem recoverCacheMarginBytes_toObject (s compressed existing : VictimSyncset) :
    SyncsetObject.recoverCacheMarginBytes s.toObject compressed.toObject existing.toObject =
      (recoverCacheMarginBytes s compressed existing).map toObject := by
  rw [SyncsetObject.recoverCacheMarginBytes, getCacheMarginBytesOrDelta_toObject, some_bind,
    recoverCacheMarginBytes]
  cases compressed.getCacheMarginBytesOrDelta with
  | inl bytes => rfl
  | inr delta =>
    simp only [recoveredCacheMarginBytes, getCacheMarginBytesOrDelta_toObject,
      some_bind]
    refine bind_map_same fun existingBytes _ => bind_map_same fun bytes _ => ?_
    exact s.setCacheMarginBytes_toObject bytes

variable {compressed existing : VictimSyncset}

theorem recoverLocalSyncedVictims_toObject (s : VictimSyncset)
    (hcompressed : compressed.MembersComplete) (hexisting : existing.AllComplete) :
    SyncsetObject.recoverLocalSyncedVictims isAssert s.toObject compressed.toObject
      existing.toObject = (recoverLocalSyncedVictims s compressed existing).map toObject := by
  rw [SyncsetObject.recoverLocalSyncedVictims, recoverLocalSyncedVictims,
    getLocalSyncedVictimsPtr_toObject isAssert hcompressed,
    getLocalSyncedVictims_toObject isAssert hexisting.membersComplete]
  simp only [some_bind]
  split
  · rfl
  · refine require_bind_map_eq fun _ => ?_
    refine bind_map_eq (applyAll_map applyVictim_toObject) fun victims hvictims => ?_
    rw [VictimCacheinfo.sortByLocalRewards_toObject]
    refine setLocalSyncedVictims_toObject s isAssert fun v hv => ?_
    exact complete_applyVictims hexisting.victims hvictims v ((List.mem_insertionSort _).1 hv)

theorem recoverLocalBeaconedVictims_toObject (s : VictimSyncset)
    (hcompressed : compressed.MembersComplete) (hexisting : existing.AllComplete) :
    SyncsetObject.recoverLocalBeaconedVictims isAssert s.toObject compressed.toObject
      existing.toObject = (recoverLocalBeaconedVictims s compressed existing).map toObject := by
  rw [SyncsetObject.recoverLocalBeaconedVictims, recoverLocalBeaconedVictims,
    getLocalBeaconedVictimsPtr_toObject isAssert hcompressed,
    getLocalBeaconedVictims_toObject isAssert hexisting.membersComplete]
  simp only [some_bind]
  split
  · rfl
  · refine require_bind_map_eq fun _ => bind_map_same fun dirinfos hdirinfos => ?_
    exact setLocalBeaconedVictims_toObject s isAssert
      (complete_applyDirinfos hexisting.dirinfos hdirinfos)

/-- Recovery makes of two objects the object that it makes of the syncsets. -/
theorem recover_toObject (hcompressed : compressed.MembersComplete)
    (hexisting : existing.MembersComplete) :
    SyncsetObject.recover isAssert compressed.toObject existing.toObject =
      (recover compressed existing).map toObject := by
  rw [SyncsetObject.recover, recover]
  simp only [isCompressed_toObject, isComplete_toObject, getSeqnum_toObject,
    getEnforceComplete_toObject, bind_eq_bind, bind_some]
  refine require_bind_map_eq fun _ => require_bind_map_eq fun hcomplete => ?_
  have hall := hexisting.allComplete hcomplete
  refine bind_map_same fun next _ => require_bind_map_eq fun _ => ?_
  refine bind_map_eq (recoverCacheMarginBytes_toObject _ _ _) fun s₁ _ => ?_
  refine bind_map_eq (recoverLocalSyncedVictims_toObject isAssert s₁ hcompressed hall)
    fun s₂ _ => ?_
  refine bind_map_eq (recoverLocalBeaconedVictims_toObject isAssert s₂ hcompressed hall)
    fun s₃ _ => ?_
  rw [isComplete_toObject, bind_some]
  refine require_bind_map_eq fun _ => ?_
  rw [getSeqnum_toObject, bind_some]
  refine require_bind_map_eq fun _ => ?_
  rw [getEnforceComplete_toObject, bind_some]
  exact require_bind_map_eq fun _ => rfl

end Recovery

end VictimSyncset

end Covered.Victim
