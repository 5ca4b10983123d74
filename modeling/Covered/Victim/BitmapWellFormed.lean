import Mathlib.Data.Set.List
import Covered.Victim.ObjectRefinement

/-!
# Bitmaps of produced syncsets

`Produced` are the cacheinfos and syncsets that any sequence of constructors, setters, compressions,
recoveries and transmissions gives. `Produced.represented` is the invariant, one case for each
operation: the object is that of a well-formed cacheinfo or syncset, and the members of a complete
list are complete. `Produced.bitmap_wellFormed` reads it back in terms of the bytes: each part is
marked as complete or as compressed and never as both or neither, the kind of an object and the
getters follow the marks, and no method aborts.

Three things are left to the callers of the classes and kept by them: a default-constructed object
is read into before anything else, reading is into such an object only, and the members of a list
that is set as complete are complete (`pushLocalBeaconedVictimForComplete` does not check its own).
`bitmap_not_wellFormed` shows what goes wrong otherwise.
-/

set_option autoImplicit false

namespace Covered.Victim

open Common Cooperation Lib Lib.ByteStream Lib.Checked VictimCacheinfo
open Option hiding bind_eq_some_iff
open VictimSyncset (CompleteDirinfos)

/-! ## Marks -/

/-- The states of a part. -/
inductive PartState
  | complete
  | compressed
deriving DecidableEq

/-- The bitmap marks a part, given the mask of the part: as complete without the part's own bit, as
compressed with this bit and the lowest one. -/
def Marks (bitmap mask : BitVec 8) : PartState → Prop
  | .complete => bitmap &&& mask &&& 0b11111110#8 = 0b00000000#8
  | .compressed => HasBits bitmap mask

theorem existsUnique_marks {bitmap mask : BitVec 8}
    (h : Marks bitmap mask .complete ↔ ¬ Marks bitmap mask .compressed) :
    ∃! state, Marks bitmap mask state := by
  by_cases hcompressed : Marks bitmap mask .compressed
  · refine ⟨.compressed, hcompressed, fun state hstate => ?_⟩
    cases state with
    | complete => exact absurd hcompressed (h.1 hstate)
    | compressed => rfl
  · refine ⟨.complete, h.2 hcompressed, fun state hstate => ?_⟩
    cases state with
    | complete => rfl
    | compressed => exact absurd hstate hcompressed

/-! ## Calls -/

namespace CacheinfoObject

/-- The fields with a getter; the reward of the redirected requests shares a mask with their
popularity. -/
inductive Field
  | objectSize
  | localCachedPopularity
  | redirectedCachedPopularity
  | redirectedCachedPopularityReward
  | localReward

def Field.mask : Field → BitVec 8
  | .objectSize => objectSizeDedupMask
  | .localCachedPopularity => localCachedPopularityDedupMask
  | .redirectedCachedPopularity => redirectedCachedPopularityDedupMask
  | .redirectedCachedPopularityReward => redirectedCachedPopularityDedupMask
  | .localReward => localRewardDedupMask

/-- Whether the getter of the field returns it as complete. -/
def succeeds (v : CacheinfoObject) : Field → Option Bool
  | .objectSize => v.getObjectSize.map Option.isSome
  | .localCachedPopularity => v.getLocalCachedPopularity.map Option.isSome
  | .redirectedCachedPopularity => v.getRedirectedCachedPopularity.map Option.isSome
  | .redirectedCachedPopularityReward => v.getRedirectedCachedPopularityReward.map Option.isSome
  | .localReward => v.getLocalReward.map Option.isSome

inductive Setter
  | setBeaconEdgeidx (beaconEdgeidx : Nat)
  | markStale
  | dedupObjectSize
  | dedupLocalCachedPopularity
  | dedupRedirectedCachedPopularity
  | dedupLocalReward

def Setter.apply : Setter → CacheinfoObject → Option CacheinfoObject
  | .setBeaconEdgeidx beaconEdgeidx, v => v.setBeaconEdgeidx beaconEdgeidx
  | .markStale, v => v.markStale
  | .dedupObjectSize, v => v.dedupObjectSize
  | .dedupLocalCachedPopularity, v => v.dedupLocalCachedPopularity
  | .dedupRedirectedCachedPopularity, v => v.dedupRedirectedCachedPopularity
  | .dedupLocalReward, v => v.dedupLocalReward

end CacheinfoObject

namespace SyncsetObject

def partMask : SyncsetPart → BitVec 8
  | .cacheMarginBytes => cacheMarginBytesDeltaMask
  | .localSyncedVictims => localSyncedVictimsDedupMask
  | .localBeaconedVictims => localBeaconedVictimsDedupMask

inductive Setter
  | setSeqnum (seqnum : Nat)
  | setEnforceComplete (isEnforceComplete : Bool)
  | setCacheMarginBytes (cacheMarginBytes : Nat)
  | setLocalSyncedVictims (victims : List CacheinfoObject)
  | pushLocalBeaconedVictimForComplete (key : Key) (dirinfoSet : DirinfoSet)
  | setLocalBeaconedVictims (dirinfos : List (Key × DirinfoSet))
  | setCacheMarginDeltaBytes (cacheMarginDeltaBytes : Int)
  | setLocalSyncedVictimsForCompress (victims : List CacheinfoObject)
  | setLocalBeaconedVictimsForCompress (dirinfos : List (Key × DirinfoSet))

def Setter.apply (isAssert : Bool) : Setter → SyncsetObject → Option SyncsetObject
  | .setSeqnum seqnum, s => s.setSeqnum seqnum
  | .setEnforceComplete isEnforceComplete, s => s.setEnforceComplete isEnforceComplete
  | .setCacheMarginBytes cacheMarginBytes, s => s.setCacheMarginBytes cacheMarginBytes
  | .setLocalSyncedVictims victims, s => s.setLocalSyncedVictims isAssert victims
  | .pushLocalBeaconedVictimForComplete key dirinfoSet, s =>
      s.pushLocalBeaconedVictimForComplete key dirinfoSet
  | .setLocalBeaconedVictims dirinfos, s => s.setLocalBeaconedVictims isAssert dirinfos
  | .setCacheMarginDeltaBytes cacheMarginDeltaBytes, s =>
      s.setCacheMarginDeltaBytes cacheMarginDeltaBytes
  | .setLocalSyncedVictimsForCompress victims, s => s.setLocalSyncedVictimsForCompress victims
  | .setLocalBeaconedVictimsForCompress dirinfos, s =>
      s.setLocalBeaconedVictimsForCompress dirinfos

/-- The cacheinfos that are passed. -/
def Setter.victims : Setter → List CacheinfoObject
  | .setLocalSyncedVictims victims => victims
  | .setLocalSyncedVictimsForCompress victims => victims
  | _ => []

/-- What is set as complete is complete. -/
def Setter.GivesComplete : Setter → Prop
  | .setLocalSyncedVictims victims => ∀ v ∈ victims, v.isComplete = some true
  | .pushLocalBeaconedVictimForComplete _ dirinfoSet => dirinfoSet.isComplete = true
  | .setLocalBeaconedVictims dirinfos => CompleteDirinfos dirinfos
  | _ => True

/-- A dirinfo set is pushed to a complete syncset only. -/
def Setter.Allowed (s : SyncsetObject) : Setter → Prop
  | .pushLocalBeaconedVictimForComplete _ _ => s.isComplete = some true
  | _ => True

end SyncsetObject

/-- An object of one of the two classes. -/
inductive Object
  | cacheinfo (v : CacheinfoObject)
  | syncset (s : SyncsetObject)

/-- The objects that are constructed, set, compressed, recovered and transmitted in any order. -/
inductive Produced (isAssert : Bool) : Object → Prop
  | createCacheinfo (key : Key) (objectSize : Nat)
      (localCachedPopularity redirectedCachedPopularity : Popularity)
      (localReward redirectedCachedReward : Reward) :
      Produced isAssert (.cacheinfo (.create key objectSize localCachedPopularity
        redirectedCachedPopularity localReward redirectedCachedReward))
  | setCacheinfo {v v' : CacheinfoObject} (setter : CacheinfoObject.Setter)
      (hv : Produced isAssert (.cacheinfo v)) (h : setter.apply v = some v') :
      Produced isAssert (.cacheinfo v')
  | dedup {current prev d : CacheinfoObject} (hcurrent : Produced isAssert (.cacheinfo current))
      (hprev : Produced isAssert (.cacheinfo prev))
      (h : CacheinfoObject.dedup current prev = some d) : Produced isAssert (.cacheinfo d)
  | recoverCacheinfo {compressed existing r : CacheinfoObject}
      (hcompressed : Produced isAssert (.cacheinfo compressed))
      (hexisting : Produced isAssert (.cacheinfo existing))
      (h : CacheinfoObject.recover compressed existing = some r) : Produced isAssert (.cacheinfo r)
  | readCacheinfo {v w : CacheinfoObject} (hv : Produced isAssert (.cacheinfo v))
      (hrange : v.InRange)
      (h : ReadBack v.getVictimCacheinfoPayloadSize (fun _ sink => v.serializeTo sink)
        (fun _ source => CacheinfoObject.deserializeInto source .invalid) w) :
      Produced isAssert (.cacheinfo w)
  | member {s : SyncsetObject} {v : CacheinfoObject} (hs : Produced isAssert (.syncset s))
      (hv : v ∈ s.localSyncedVictims) : Produced isAssert (.cacheinfo v)
  | createEmpty (seqnum : Nat) (isEnforceComplete : Bool) :
      Produced isAssert (.syncset (.createEmpty seqnum isEnforceComplete))
  | create {seqnum : Nat} {isEnforceComplete : Bool} {cacheMarginBytes : Nat}
      {victims : List CacheinfoObject} {dirinfos : List (Key × DirinfoSet)} {s : SyncsetObject}
      (hvictims : ∀ v ∈ victims, Produced isAssert (.cacheinfo v))
      (hcomplete : ∀ v ∈ victims, v.isComplete = some true) (hdirinfos : CompleteDirinfos dirinfos)
      (h : SyncsetObject.create isAssert seqnum isEnforceComplete cacheMarginBytes victims
        dirinfos = some s) : Produced isAssert (.syncset s)
  | fullCompressed (seqnum : Nat) (isEnforceComplete : Bool) : Produced isAssert
      (.syncset (.getFullCompressedVictimSyncset seqnum isEnforceComplete))
  | setSyncset {s s' : SyncsetObject} (setter : SyncsetObject.Setter)
      (hs : Produced isAssert (.syncset s))
      (hvictims : ∀ v ∈ setter.victims, Produced isAssert (.cacheinfo v))
      (hcomplete : setter.GivesComplete) (h : setter.apply isAssert s = some s') :
      Produced isAssert (.syncset s')
  | compress {current prev c : SyncsetObject} (hcurrent : Produced isAssert (.syncset current))
      (hprev : Produced isAssert (.syncset prev))
      (h : SyncsetObject.compress isAssert current prev = some c) : Produced isAssert (.syncset c)
  | recover {compressed existing r : SyncsetObject}
      (hcompressed : Produced isAssert (.syncset compressed))
      (hexisting : Produced isAssert (.syncset existing))
      (h : SyncsetObject.recover isAssert compressed existing = some r) :
      Produced isAssert (.syncset r)
  | readSyncset {s t : SyncsetObject} (hs : Produced isAssert (.syncset s)) (hrange : s.InRange)
      (h : ReadBack s.getVictimSyncsetPayloadSize (fun _ sink => s.serializeTo sink)
        (fun _ source => SyncsetObject.deserializeInto source .invalid) t) :
      Produced isAssert (.syncset t)

/-! ## The invariant -/

namespace VictimSyncset

/-! ### Complete members -/

section MembersComplete

variable {s s' current prev compressed existing : VictimSyncset}

section Complete

variable (h : s.MembersComplete)
include h

theorem MembersComplete.setCacheMarginBytes (bytes : Nat) :
    (s.setCacheMarginBytes bytes).MembersComplete where
  victims := by
    intro hnot
    refine h.victims fun hpart => hnot ?_
    exact (part_setCacheMarginBytes s _ bytes).2 ⟨by decide, hpart⟩
  dirinfos := by
    intro hnot
    refine h.dirinfos fun hpart => hnot ?_
    exact (part_setCacheMarginBytes s _ bytes).2 ⟨by decide, hpart⟩

theorem MembersComplete.setLocalSyncedVictims {victims : List VictimCacheinfo}
    (hvictims : ∀ v ∈ victims, v.isComplete = true) :
    (s.setLocalSyncedVictims victims).MembersComplete where
  victims := fun _ => hvictims
  dirinfos := by
    intro hnot
    refine h.dirinfos fun hpart => hnot ?_
    exact (part_setLocalSyncedVictims s _ victims).2 ⟨by decide, hpart⟩

theorem MembersComplete.setLocalBeaconedVictims {dirinfos : List (Key × DirinfoSet)}
    (hdirinfos : CompleteDirinfos dirinfos) :
    (s.setLocalBeaconedVictims dirinfos).MembersComplete where
  victims := by
    intro hnot
    refine h.victims fun hpart => hnot ?_
    exact (part_setLocalBeaconedVictims s _ dirinfos).2 ⟨by decide, hpart⟩
  dirinfos := fun _ => hdirinfos

theorem MembersComplete.setCacheMarginDeltaBytes (delta : Int) :
    (s.setCacheMarginDeltaBytes delta).MembersComplete where
  victims := by
    intro hnot
    refine h.victims fun hpart => hnot ?_
    exact (part_setCacheMarginDeltaBytes s _ delta).2 (.inr hpart)
  dirinfos := by
    intro hnot
    refine h.dirinfos fun hpart => hnot ?_
    exact (part_setCacheMarginDeltaBytes s _ delta).2 (.inr hpart)

theorem MembersComplete.setLocalSyncedVictimsForCompress (victims : List VictimCacheinfo) :
    (s.setLocalSyncedVictimsForCompress victims).MembersComplete where
  victims := by
    intro hnot
    exact absurd ((part_setLocalSyncedVictimsForCompress s _ victims).2 (.inl rfl)) hnot
  dirinfos := by
    intro hnot
    refine h.dirinfos fun hpart => hnot ?_
    exact (part_setLocalSyncedVictimsForCompress s _ victims).2 (.inr hpart)

theorem MembersComplete.setLocalBeaconedVictimsForCompress (dirinfos : List (Key × DirinfoSet)) :
    (s.setLocalBeaconedVictimsForCompress dirinfos).MembersComplete where
  victims := by
    intro hnot
    refine h.victims fun hpart => hnot ?_
    exact (part_setLocalBeaconedVictimsForCompress s _ dirinfos).2 (.inr hpart)
  dirinfos := by
    intro hnot
    exact absurd ((part_setLocalBeaconedVictimsForCompress s _ dirinfos).2 (.inl rfl)) hnot

theorem MembersComplete.push {key : Key} {dirinfoSet : DirinfoSet}
    (hset : dirinfoSet.isComplete = true)
    (hpush : s.pushLocalBeaconedVictimForComplete key dirinfoSet = some s') :
    s'.MembersComplete := by
  have hcomplete : s.isComplete = true := by
    rw [pushLocalBeaconedVictimForComplete, bind_eq_bind] at hpush
    exact (require_bind_iff.1 hpush).1
  have hall := h.allComplete hcomplete
  obtain ⟨t, ht, -, -, hvictims, hdirinfos⟩ := pushLocalBeaconedVictim_spec hcomplete key dirinfoSet
  rw [hpush, some.injEq] at ht
  subst ht
  constructor
  · intro _
    rw [hvictims]
    exact hall.victims
  · intro _ pair hpair
    rw [hdirinfos] at hpair
    rcases List.mem_append.1 hpair with hpair | hpair
    · exact hall.dirinfos pair hpair
    · rw [List.mem_singleton.1 hpair]
      exact hset

theorem MembersComplete.received : s.received.MembersComplete where
  victims := by
    intro hnot v hv
    obtain ⟨w, hw, rfl⟩ := List.mem_map.1 hv
    exact h.victims hnot w hw
  dirinfos := by
    intro hnot pair hpair
    obtain ⟨p, hp, rfl⟩ := List.mem_map.1 hpair
    exact h.dirinfos hnot p hp

/-! ### Compression and recovery -/

theorem MembersComplete.compressLocalSyncedVictims
    (hs : VictimSyncset.compressLocalSyncedVictims s current prev = some s') :
    s'.MembersComplete := by
  simp only [VictimSyncset.compressLocalSyncedVictims, bind_eq_some_iff, pure_eq_some_iff] at hs
  obtain ⟨-, -, -, -, messages, -, rfl⟩ := hs
  split
  · exact h
  · exact h.setLocalSyncedVictimsForCompress _

theorem MembersComplete.compressLocalBeaconedVictims
    (hs : VictimSyncset.compressLocalBeaconedVictims s current prev = some s') :
    s'.MembersComplete := by
  simp only [VictimSyncset.compressLocalBeaconedVictims, bind_eq_some_iff, pure_eq_some_iff] at hs
  obtain ⟨-, -, -, -, messages, -, rfl⟩ := hs
  split
  · exact h
  · exact h.setLocalBeaconedVictimsForCompress _

end Complete

theorem MembersComplete.compress (h : current.MembersComplete)
    (hs : VictimSyncset.compress current prev = some s') : s'.MembersComplete := by
  simp only [VictimSyncset.compress, bind_eq_some_iff, pure_eq_some_iff] at hs
  obtain ⟨-, -, -, -, -, -, -, -, s₂, h₂, s₃, h₃, rfl⟩ := hs
  have hmargin : (compressCacheMarginBytes current current prev).MembersComplete := by
    rw [compressCacheMarginBytes]
    split
    · exact h.setCacheMarginDeltaBytes _
    · exact h
  split
  · exact (hmargin.compressLocalSyncedVictims h₂).compressLocalBeaconedVictims h₃
  · exact h

theorem MembersComplete.recoverCacheMarginBytes (h : s.MembersComplete)
    (hs : VictimSyncset.recoverCacheMarginBytes s compressed existing = some s') :
    s'.MembersComplete := by
  rw [VictimSyncset.recoverCacheMarginBytes] at hs
  split at hs
  · cases hs
    exact h
  · simp only [bind_eq_some_iff, pure_eq_some_iff] at hs
    obtain ⟨-, -, bytes, -, rfl⟩ := hs
    exact h.setCacheMarginBytes bytes

theorem MembersComplete.recoverLocalSyncedVictims (h : s.MembersComplete)
    (hexisting : existing.AllComplete)
    (hs : VictimSyncset.recoverLocalSyncedVictims s compressed existing = some s') :
    s'.MembersComplete := by
  simp only [VictimSyncset.recoverLocalSyncedVictims, getLocalSyncedVictims,
    decide_eq_true_eq] at hs
  split at hs
  · cases hs
    exact h
  · simp only [bind_eq_some_iff, pure_eq_some_iff] at hs
    obtain ⟨-, -, victims, hvictims, rfl⟩ := hs
    refine h.setLocalSyncedVictims fun v hv => ?_
    exact complete_applyVictims hexisting.victims hvictims v ((List.mem_insertionSort _).1 hv)

theorem MembersComplete.recoverLocalBeaconedVictims (h : s.MembersComplete)
    (hexisting : existing.AllComplete)
    (hs : VictimSyncset.recoverLocalBeaconedVictims s compressed existing = some s') :
    s'.MembersComplete := by
  simp only [VictimSyncset.recoverLocalBeaconedVictims, getLocalBeaconedVictims,
    decide_eq_true_eq] at hs
  split at hs
  · cases hs
    exact h
  · simp only [bind_eq_some_iff, pure_eq_some_iff] at hs
    obtain ⟨-, -, dirinfos, hdirinfos, rfl⟩ := hs
    exact h.setLocalBeaconedVictims (complete_applyDirinfos hexisting.dirinfos hdirinfos)

theorem MembersComplete.recover (h : compressed.MembersComplete)
    (hexisting : existing.MembersComplete)
    (hs : VictimSyncset.recover compressed existing = some s') : s'.MembersComplete := by
  simp only [VictimSyncset.recover, bind_eq_some_iff, require_eq_some_iff, pure_eq_some_iff] at hs
  obtain ⟨-, -, -, hcomplete, next, -, -, -, s₁, h₁, s₂, h₂, s₃, h₃, -, -, -, -, -, -, rfl⟩ := hs
  have hall := hexisting.allComplete hcomplete
  have hsynced := (h.recoverCacheMarginBytes h₁).recoverLocalSyncedVictims hall h₂
  exact hsynced.recoverLocalBeaconedVictims hall h₃

end MembersComplete

end VictimSyncset

/-! ### Every produced object is represented -/

/-- The object is that of a cacheinfo, or of a syncset with complete members in its complete
lists. -/
def Object.Represented : Object → Prop
  | .cacheinfo v => ∃ t : VictimCacheinfo, v = t.toObject
  | .syncset s => ∃ t : VictimSyncset, t.MembersComplete ∧ s = t.toObject

theorem exists_cacheinfos {victims : List CacheinfoObject}
    (h : ∀ v ∈ victims, (Object.cacheinfo v).Represented) :
    ∃ ts : List VictimCacheinfo, victims = ts.map toObject := by
  have hrange : victims ∈ Set.range (List.map toObject) := by
    rw [Set.range_list_map]
    intro v hv
    obtain ⟨t, rfl⟩ := h v hv
    exact Set.mem_range_self t
  obtain ⟨ts, hts⟩ := hrange
  exact ⟨ts, hts.symm⟩

theorem complete_of_map {victims : List VictimCacheinfo}
    (h : ∀ v ∈ victims.map toObject, v.isComplete = some true) :
    ∀ v ∈ victims, v.isComplete = true := by
  intro v hv
  have hcomplete := h v.toObject (List.mem_map_of_mem hv)
  rw [isComplete_toObject] at hcomplete
  exact some.inj hcomplete

namespace CacheinfoObject

/-- A setter on the object of a cacheinfo gives the object of a cacheinfo. -/
theorem Setter.apply_toObject (setter : Setter) (v : VictimCacheinfo) :
    ∃ t : VictimCacheinfo, setter.apply v.toObject = some t.toObject := by
  cases setter with
  | setBeaconEdgeidx beaconEdgeidx =>
    exact ⟨{ v with beaconEdgeidx := some beaconEdgeidx }, v.checked_toObject _⟩
  | markStale => exact ⟨_, v.markStale_toObject⟩
  | dedupObjectSize => exact ⟨_, v.dedupObjectSize_toObject⟩
  | dedupLocalCachedPopularity => exact ⟨_, v.dedupLocalCachedPopularity_toObject⟩
  | dedupRedirectedCachedPopularity => exact ⟨_, v.dedupRedirectedCachedPopularity_toObject⟩
  | dedupLocalReward => exact ⟨_, v.dedupLocalReward_toObject⟩

end CacheinfoObject

namespace SyncsetObject

variable {isAssert : Bool}

/-- A setter that is allowed does not abort, and keeps the members of complete lists complete. -/
theorem Setter.apply_toObject (setter : Setter) {s : VictimSyncset} (hs : s.MembersComplete)
    (hvictims : ∀ v ∈ setter.victims, (Object.cacheinfo v).Represented)
    (hcomplete : setter.GivesComplete) :
    (setter.Allowed s.toObject → ∃ s', setter.apply isAssert s.toObject = some s') ∧
    ∀ s', setter.apply isAssert s.toObject = some s' → (Object.syncset s').Represented := by
  -- all but one setter answer with an object of the model
  have answered : ∀ {o : Option SyncsetObject} (t : VictimSyncset), o = some t.toObject →
      t.MembersComplete →
      (setter.Allowed s.toObject → ∃ s', o = some s') ∧
        ∀ s', o = some s' → (Object.syncset s').Represented := by
    intro o t ho ht
    subst ho
    refine ⟨fun _ => ⟨_, rfl⟩, fun s' hs' => ?_⟩
    cases hs'
    exact ⟨t, ht, rfl⟩
  cases setter with
  | setSeqnum seqnum => exact answered _ (s.setSeqnum_toObject seqnum) ⟨hs.victims, hs.dirinfos⟩
  | setEnforceComplete isEnforceComplete =>
    exact answered _ (s.setEnforceComplete_toObject isEnforceComplete) ⟨hs.victims, hs.dirinfos⟩
  | setCacheMarginBytes bytes =>
    exact answered _ (s.setCacheMarginBytes_toObject bytes) (hs.setCacheMarginBytes bytes)
  | setLocalSyncedVictims victims =>
    obtain ⟨ts, rfl⟩ := exists_cacheinfos hvictims
    have hts := complete_of_map hcomplete
    exact answered _ (s.setLocalSyncedVictims_toObject isAssert hts) (hs.setLocalSyncedVictims hts)
  | pushLocalBeaconedVictimForComplete key dirinfoSet =>
    have hpush := s.push_toObject key dirinfoSet
    constructor
    · intro hallowed
      have hs' : s.isComplete = true := by
        rw [Setter.Allowed, VictimSyncset.isComplete_toObject] at hallowed
        exact some.inj hallowed
      obtain ⟨t, ht, -⟩ := VictimSyncset.pushLocalBeaconedVictim_spec hs' key dirinfoSet
      rw [ht] at hpush
      exact ⟨_, hpush⟩
    · intro s' hs'
      rw [Setter.apply, hpush] at hs'
      obtain ⟨t, ht, rfl⟩ := map_eq_some_iff.1 hs'
      exact ⟨t, hs.push hcomplete ht, rfl⟩
  | setLocalBeaconedVictims dirinfos =>
    exact answered _ (s.setLocalBeaconedVictims_toObject isAssert hcomplete)
      (hs.setLocalBeaconedVictims hcomplete)
  | setCacheMarginDeltaBytes delta =>
    exact answered _ (s.setCacheMarginDeltaBytes_toObject delta) (hs.setCacheMarginDeltaBytes delta)
  | setLocalSyncedVictimsForCompress victims =>
    obtain ⟨ts, rfl⟩ := exists_cacheinfos hvictims
    exact answered _ (s.setLocalSyncedVictimsForCompress_toObject ts)
      (hs.setLocalSyncedVictimsForCompress ts)
  | setLocalBeaconedVictimsForCompress dirinfos =>
    exact answered _ (s.setLocalBeaconedVictimsForCompress_toObject dirinfos)
      (hs.setLocalBeaconedVictimsForCompress dirinfos)

end SyncsetObject

variable {isAssert : Bool} {o : Object}

/-- The invariant of the objects, by induction on how an object was produced. -/
theorem Produced.represented (h : Produced isAssert o) : o.Represented := by
  induction h with
  | createCacheinfo key objectSize localPopularity redirectedPopularity reward redirectedReward =>
    exact ⟨.create key objectSize localPopularity redirectedPopularity reward redirectedReward, rfl⟩
  | setCacheinfo setter hv h ih =>
    obtain ⟨t, rfl⟩ := ih
    obtain ⟨t', ht'⟩ := setter.apply_toObject t
    rw [h, some.injEq] at ht'
    exact ⟨t', ht'⟩
  | dedup hcurrent hprev h ihcurrent ihprev =>
    obtain ⟨current, rfl⟩ := ihcurrent
    obtain ⟨prev, rfl⟩ := ihprev
    rw [dedup_toObject] at h
    obtain ⟨d, -, rfl⟩ := map_eq_some_iff.1 h
    exact ⟨d, rfl⟩
  | recoverCacheinfo hcompressed hexisting h ihcompressed ihexisting =>
    obtain ⟨compressed, rfl⟩ := ihcompressed
    obtain ⟨existing, rfl⟩ := ihexisting
    rw [recover_toObject] at h
    obtain ⟨r, -, rfl⟩ := map_eq_some_iff.1 h
    exact ⟨r, rfl⟩
  | readCacheinfo hv hrange h ih =>
    obtain ⟨t, rfl⟩ := ih
    rw [getVictimCacheinfoPayloadSize_toObject] at h
    refine ⟨t.received, h.eq t.length_wire (fun sink => t.emits_toObject sink) ?_⟩
    intro hsize S source
    exact parses_toObject source (inRange_of_toObject hrange) hsize
  | member hs hv ih =>
    obtain ⟨t, -, rfl⟩ := ih
    obtain ⟨v, -, rfl⟩ := List.mem_map.1 hv
    exact ⟨v, rfl⟩
  | createEmpty seqnum isEnforceComplete =>
    refine ⟨.createEmpty seqnum isEnforceComplete, ⟨fun _ v hv => ?_, fun _ pair hpair => ?_⟩, rfl⟩
    · exact absurd hv List.not_mem_nil
    · exact absurd hpair List.not_mem_nil
  | create hvictims hcomplete hdirinfos h ih =>
    obtain ⟨ts, rfl⟩ := exists_cacheinfos ih
    have hts := complete_of_map hcomplete
    rw [VictimSyncset.create_toObject _ _ _ _ hts hdirinfos] at h
    exact ⟨_, ⟨fun _ => hts, fun _ => hdirinfos⟩, (some.inj h).symm⟩
  | fullCompressed seqnum isEnforceComplete =>
    exact ⟨_, VictimSyncset.membersComplete_fullCompressed seqnum isEnforceComplete, rfl⟩
  | setSyncset setter hs hvictims hcomplete h ih ihvictims =>
    obtain ⟨t, ht, rfl⟩ := ih
    exact (setter.apply_toObject ht ihvictims hcomplete).2 _ h
  | compress hcurrent hprev h ihcurrent ihprev =>
    obtain ⟨current, hc, rfl⟩ := ihcurrent
    obtain ⟨prev, hp, rfl⟩ := ihprev
    rw [VictimSyncset.compress_toObject _ hc hp] at h
    obtain ⟨t, ht, rfl⟩ := map_eq_some_iff.1 h
    exact ⟨t, hc.compress ht, rfl⟩
  | recover hcompressed hexisting h ihcompressed ihexisting =>
    obtain ⟨compressed, hc, rfl⟩ := ihcompressed
    obtain ⟨existing, he, rfl⟩ := ihexisting
    rw [VictimSyncset.recover_toObject _ hc he] at h
    obtain ⟨t, ht, rfl⟩ := map_eq_some_iff.1 h
    exact ⟨t, hc.recover he ht, rfl⟩
  | readSyncset hs hrange h ih =>
    obtain ⟨t, ht, rfl⟩ := ih
    rw [VictimSyncset.getVictimSyncsetPayloadSize_toObject] at h
    refine ⟨t.received, ht.received, h.eq t.length_wire (fun sink => t.emits_toObject sink) ?_⟩
    intro hsize S source
    exact VictimSyncset.parses_toObject source (VictimSyncset.inRange_of_toObject hrange hsize)

/-! ## Well-formed objects -/

namespace CacheinfoObject

/-- The bitmap marks each part in one way, the methods agree with the marks, and none of them
aborts. -/
structure WellFormed (isAssert : Bool) (v : CacheinfoObject) : Prop where
  marked : ∀ field : Field, ∃! state, Marks v.dedupBitmap field.mask state
  spare : v.dedupBitmap = staleBitmap ∨ v.dedupBitmap &&& 0b11100000#8 = 0b00000000#8
  /-- Exactly one of complete, deduplicated and stale. -/
  kind : ∃ complete deduped stale : Bool, v.isComplete = some complete ∧
    v.isDeduped = some deduped ∧ v.isStale = some stale ∧
    (complete = true ↔ deduped = false ∧ stale = false) ∧ (deduped = true → stale = false) ∧
    (complete = true ↔ ∀ field : Field, Marks v.dedupBitmap field.mask .complete)
  getters : ∀ field, ∃ succeeded, v.succeeds field = some succeeded ∧
    (succeeded = true ↔ Marks v.dedupBitmap field.mask .complete)
  answers : v.isFullyDeduped.isSome = true ∧ v.getKey.isSome = true ∧
    v.getBeaconEdgeidx.isSome = true ∧ v.getVictimCacheinfoPayloadSize.isSome = true ∧
    v.getSizeForCapacity.isSome = true
  setters : ∀ setter : Setter, ∃ v', setter.apply v = some v'
  dedup : ∀ prev, Produced isAssert (.cacheinfo prev) → v.isComplete = some true →
    prev.isComplete = some true → ∃ d, CacheinfoObject.dedup v prev = some d
  recover : ∀ existing, Produced isAssert (.cacheinfo existing) → v.isDeduped = some true →
    v.isFullyDeduped = some false → existing.isComplete = some true →
    ∃ r, CacheinfoObject.recover v existing = some r
  /-- Every stream with room takes the object, and every stream gives it back. -/
  transmission : v.InRange → (∀ n, v.getVictimCacheinfoPayloadSize = some n → n < 2 ^ 32) →
    ∃ (bytes : List UInt8) (w : CacheinfoObject), w.dedupBitmap = v.dedupBitmap ∧
      (∀ (S : Type) (sink : Sink S), Emits sink (v.serializeTo sink) bytes) ∧
      ∀ (S : Type) (source : Source S), Parses source (deserializeInto source .invalid) w bytes

theorem marks_complete (field : Field) : ∀ bitmap : BitVec 6, VictimCacheinfo.LegalBitmap bitmap →
    (widen bitmap &&& field.mask &&& 0b11111110#8 = 0b00000000#8 ↔
      ¬ HasBits (widen bitmap) field.mask) := by
  cases field <;> decide +kernel

theorem spare_legal : ∀ bitmap : BitVec 6, VictimCacheinfo.LegalBitmap bitmap →
    widen bitmap = staleBitmap ∨ widen bitmap &&& 0b11100000#8 = 0b00000000#8 := by
  decide +kernel

/-- A legal bitmap that is not the stale one is that of a complete cacheinfo iff no field is
deduplicated. -/
theorem complete_legal : ∀ bitmap : BitVec 6, VictimCacheinfo.LegalBitmap bitmap →
    ((bitmap ≠ VictimCacheinfo.staleBitmap ∧ bitmap &&& VictimCacheinfo.dedupMask =
      VictimCacheinfo.completeBitmap &&& VictimCacheinfo.dedupMask) ↔
    (¬ HasBits (widen bitmap) objectSizeDedupMask ∧
      ¬ HasBits (widen bitmap) localCachedPopularityDedupMask ∧
      ¬ HasBits (widen bitmap) redirectedCachedPopularityDedupMask ∧
      ¬ HasBits (widen bitmap) localRewardDedupMask)) := by
  decide +kernel

section OfModel

variable {isAssert : Bool} (t : VictimCacheinfo)

theorem marks_toObject (field : Field) : Marks t.toObject.dedupBitmap field.mask .complete ↔
    ¬ Marks t.toObject.dedupBitmap field.mask .compressed :=
  marks_complete field _ t.bitmap_wf

theorem succeeds_toObject (field : Field) : ∃ succeeded,
    t.toObject.succeeds field = some succeeded ∧
    (succeeded = true ↔ Marks t.toObject.dedupBitmap field.mask .complete) := by
  -- the getter answers by the mask of the field
  have answered : ∀ {α : Type} (value : α), ∃ succeeded,
      (t.toObject.getField field.mask value).map isSome = some succeeded ∧
      (succeeded = true ↔ Marks t.toObject.dedupBitmap field.mask .complete) := by
    intro α value
    have hmarks := marks_toObject t field
    rw [getField, checked_toObject, map_some]
    refine ⟨_, rfl, ?_⟩
    rw [hmarks, Marks]
    split <;> simp [*]
  cases field with
  | objectSize => exact answered t.objectSize
  | localCachedPopularity => exact answered t.localCachedPopularity
  | redirectedCachedPopularity => exact answered t.redirectedCachedPopularity
  | redirectedCachedPopularityReward => exact answered t.redirectedCachedReward
  | localReward => exact answered t.localReward

theorem isComplete_iff_marks : t.isComplete = true ↔
    ∀ field : Field, Marks t.toObject.dedupBitmap field.mask .complete := by
  have hlegal := complete_legal _ t.bitmap_wf
  have hcomplete : t.isComplete = true ↔ t.dedupBitmap ≠ VictimCacheinfo.staleBitmap ∧
      t.dedupBitmap &&& VictimCacheinfo.dedupMask =
        VictimCacheinfo.completeBitmap &&& VictimCacheinfo.dedupMask := by
    rw [VictimCacheinfo.isComplete, Bool.and_eq_true, bne_iff_ne, decide_eq_true_eq]
  rw [hcomplete, hlegal]
  constructor
  · rintro ⟨hsize, hlocal, hredirected, hreward⟩ field
    refine (marks_toObject t field).2 ?_
    cases field with
    | objectSize => exact hsize
    | localCachedPopularity => exact hlocal
    | redirectedCachedPopularity => exact hredirected
    | redirectedCachedPopularityReward => exact hredirected
    | localReward => exact hreward
  · intro h
    have hunmarked := fun field => (marks_toObject t field).1 (h field)
    exact ⟨hunmarked .objectSize, hunmarked .localCachedPopularity,
      hunmarked .redirectedCachedPopularity, hunmarked .localReward⟩

theorem kind_toObject : (t.isComplete = true ↔ t.isDeduped = false ∧ t.isStale = false) ∧
    (t.isDeduped = true → t.isStale = false) := by
  constructor
  · constructor
    · intro hcomplete
      have hbitmap := bitmap_of_isComplete hcomplete
      refine ⟨?_, isStale_of_isComplete hcomplete⟩
      rw [VictimCacheinfo.isDeduped, hbitmap]
      decide
    · rintro ⟨hdeduped, hstale⟩
      by_contra hnot
      have hmust := isDeduped_of_not (eq_false_of_ne_true hnot) hstale
      rw [hdeduped] at hmust
      cases hmust
  · intro hdeduped
    rw [VictimCacheinfo.isDeduped, Bool.and_eq_true, bne_iff_ne] at hdeduped
    exact beq_eq_false_iff_ne.2 hdeduped.1

theorem wellFormed_toObject : t.toObject.WellFormed isAssert where
  marked field := existsUnique_marks (marks_toObject t field)
  spare := spare_legal _ t.bitmap_wf
  kind := by
    obtain ⟨hcomplete, hstale⟩ := kind_toObject t
    exact ⟨_, _, _, t.isComplete_toObject, t.isDeduped_toObject, t.isStale_toObject, hcomplete,
      hstale, isComplete_iff_marks t⟩
  getters := succeeds_toObject t
  answers := by simp
  setters setter := by
    obtain ⟨t', ht'⟩ := setter.apply_toObject t
    exact ⟨_, ht'⟩
  dedup := by
    intro prev hprev hcomplete hprevComplete
    obtain ⟨p, rfl⟩ := hprev.represented
    rw [isComplete_toObject, some.injEq] at hcomplete hprevComplete
    rw [dedup_toObject]
    simp only [VictimCacheinfo.dedup, require_bind hcomplete, require_bind hprevComplete,
      pure_def, map_some]
    exact ⟨_, rfl⟩
  recover := by
    intro existing hexisting hdeduped hfully hcomplete
    obtain ⟨e, rfl⟩ := hexisting.represented
    rw [isDeduped_toObject, some.injEq] at hdeduped
    rw [isFullyDeduped_toObject, some.injEq] at hfully
    rw [isComplete_toObject, some.injEq] at hcomplete
    obtain ⟨r, hr⟩ := recover_isSome hdeduped hfully hcomplete
    rw [recover_toObject, hr]
    exact ⟨_, rfl⟩
  transmission := by
    intro hrange hsize
    have hlimit := hsize _ t.getVictimCacheinfoPayloadSize_toObject
    exact ⟨t.wire, t.received.toObject, rfl, fun S sink => t.emits_toObject sink,
      fun S source => parses_toObject source
        (inRange_of_toObject hrange) hlimit⟩

end OfModel

end CacheinfoObject

namespace SyncsetObject

/-- What compression asserts of its arguments: complete syncsets with consecutive seqnums. -/
structure Compressible (current prev : SyncsetObject) : Prop where
  current_complete : current.isComplete = some true
  prev_complete : prev.isComplete = some true
  seqnum : current.seqnum = prev.seqnum + 1
  limit : current.seqnum < uint64Limit

/-- What recovery asserts of its arguments: a compressed and a complete syncset with consecutive
seqnums, free bytes that fit into 64 bits, and messages that say something. -/
structure Recoverable (compressed existing : SyncsetObject) : Prop where
  is_compressed : compressed.isCompressed = some true
  existing_complete : existing.isComplete = some true
  seqnum : compressed.seqnum = existing.seqnum + 1
  limit : compressed.seqnum < uint64Limit
  margin : ∀ delta, compressed.getCacheMarginBytesOrDelta = some (.inr delta) →
    ∃ bytes, VictimSyncset.applyCacheMarginDelta existing.cacheMarginBytes delta = some bytes
  victims : ∀ v ∈ compressed.localSyncedVictims, v.isFullyDeduped = some false
  dirinfos : ∀ pair ∈ compressed.localBeaconedVictims, pair.2.isFullyCompressed = false

/-- The bitmap marks each part in one way and each list as empty iff it is, the methods agree with
the marks, and none of them aborts. -/
structure WellFormed (isAssert : Bool) (s : SyncsetObject) : Prop where
  marked : ∀ part, ∃! state, Marks s.compressedBitmap (partMask part) state
  synced_empty : HasBits s.compressedBitmap localSyncedVictimsEmptyMask ↔ s.localSyncedVictims = []
  beaconed_empty :
    HasBits s.compressedBitmap localBeaconedVictimsEmptyMask ↔ s.localBeaconedVictims = []
  spare : s.compressedBitmap &&& 0b11000000#8 = 0b00000000#8
  /-- Complete iff not compressed, and compressed iff some part is. -/
  kind : ∃ compressed : Bool, s.isCompressed = some compressed ∧ s.isComplete = some (!compressed) ∧
    (compressed = true ↔ ∃ part, Marks s.compressedBitmap (partMask part) .compressed)
  margin : ∃ margin, s.getCacheMarginBytesOrDelta = some margin ∧
    (margin.isLeft = true ↔ Marks s.compressedBitmap cacheMarginBytesDeltaMask .complete)
  synced : ∃ isComplete,
    s.getLocalSyncedVictims isAssert = some (s.localSyncedVictims, isComplete) ∧
    s.getLocalSyncedVictimsPtr isAssert = some (s.localSyncedVictims, isComplete) ∧
    (isComplete = true ↔ Marks s.compressedBitmap localSyncedVictimsDedupMask .complete)
  beaconed : ∃ isComplete,
    s.getLocalBeaconedVictims isAssert = some (s.localBeaconedVictims, isComplete) ∧
    s.getLocalBeaconedVictimsPtr isAssert = some (s.localBeaconedVictims, isComplete) ∧
    (isComplete = true ↔ Marks s.compressedBitmap localBeaconedVictimsDedupMask .complete)
  answers : s.getSeqnum.isSome = true ∧ s.getEnforceComplete.isSome = true ∧
    s.getVictimSyncsetPayloadSize.isSome = true ∧ s.getSizeForCapacity.isSome = true
  setters : ∀ setter : Setter, (∀ v ∈ setter.victims, Produced isAssert (.cacheinfo v)) →
    setter.GivesComplete → setter.Allowed s → ∃ s', setter.apply isAssert s = some s'
  compress : ∀ prev, Produced isAssert (.syncset prev) → Compressible s prev →
    ∃ c, SyncsetObject.compress isAssert s prev = some c
  recover : ∀ existing, Produced isAssert (.syncset existing) → Recoverable s existing →
    ∃ r, SyncsetObject.recover isAssert s existing = some r ∧ r.isComplete = some true
  /-- Every stream with room takes the object, and every stream gives it back. -/
  transmission : s.InRange → (∀ n, s.getVictimSyncsetPayloadSize = some n → n < 2 ^ 32) →
    ∃ (bytes : List UInt8) (t : SyncsetObject), t.compressedBitmap = s.compressedBitmap ∧
      (∀ (S : Type) (sink : Sink S), Emits sink (s.serializeTo sink) bytes) ∧
      ∀ (S : Type) (source : Source S), Parses source (deserializeInto source .invalid) t bytes

theorem marks_complete (part : SyncsetPart) : ∀ bitmap : BitVec 6,
    VictimSyncset.LegalBitmap bitmap →
    (widen bitmap &&& partMask part &&& 0b11111110#8 = 0b00000000#8 ↔
      ¬ HasBits (widen bitmap) (partMask part)) := by
  cases part <;> decide +kernel

theorem spare_widen : ∀ bitmap : BitVec 6, widen bitmap &&& 0b11000000#8 = 0b00000000#8 := by
  decide +kernel

section OfModel

variable {isAssert : Bool} {t : VictimSyncset}

theorem partMask_eq (part : SyncsetPart) :
    partMask part = widen (VictimSyncset.compressedMask part) := by
  cases part <;> rfl

theorem marks_toObject (t : VictimSyncset) (part : SyncsetPart) :
    Marks t.toObject.compressedBitmap (partMask part) .complete ↔
      ¬ Marks t.toObject.compressedBitmap (partMask part) .compressed :=
  marks_complete part _ t.bitmap_wf

theorem compressed_toObject (t : VictimSyncset) (part : SyncsetPart) :
    Marks t.toObject.compressedBitmap (partMask part) .compressed ↔ t.PartCompressed part := by
  rw [partMask_eq]
  exact t.hasPart_toObject part

theorem complete_toObject (t : VictimSyncset) (part : SyncsetPart) :
    Marks t.toObject.compressedBitmap (partMask part) .complete ↔ ¬ t.PartCompressed part := by
  rw [marks_toObject, compressed_toObject]

theorem isCompressed_iff_marks (t : VictimSyncset) : t.isCompressed = true ↔
    ∃ part, Marks t.toObject.compressedBitmap (partMask part) .compressed := by
  have hcomplete := VictimSyncset.isComplete_iff t
  rw [VictimSyncset.isComplete_eq_not_isCompressed, Bool.not_eq_true'] at hcomplete
  simp only [compressed_toObject]
  rw [← not_iff_not, not_exists, ← hcomplete, Bool.not_eq_true]

/-- The known victims take a message that says something. -/
theorem exists_applyVictim {known : List VictimCacheinfo} {message : VictimCacheinfo}
    (hknown : ∀ v ∈ known, v.isComplete = true) (hmessage : message.isFullyDeduped = false) :
    ∃ known', VictimSyncset.applyVictim known message = some known' ∧
      ∀ v ∈ known', v.isComplete = true := by
  have hsome : ∃ known', VictimSyncset.applyVictim known message = some known' := by
    rw [VictimSyncset.applyVictim]
    cases hfind : findVictimCacheinfoForKey message.key known with
    | none =>
      simp only [require_bind hmessage]
      split
      · exact ⟨_, rfl⟩
      · split <;> exact ⟨_, rfl⟩
    | some existing =>
      simp only [require_bind hmessage]
      split
      · exact ⟨_, rfl⟩
      · next hcomplete =>
        split
        · exact ⟨_, rfl⟩
        · next hstale =>
          have hdeduped := isDeduped_of_not (eq_false_of_ne_true hcomplete)
            (eq_false_of_ne_true hstale)
          obtain ⟨r, hr⟩ := recover_isSome hdeduped hmessage
            (hknown existing (KeyedList.mem_of_find hfind))
          exact ⟨_, by rw [hr]; rfl⟩
  obtain ⟨known', h⟩ := hsome
  exact ⟨known', h, VictimSyncset.complete_applyVictim hknown h⟩

theorem exists_applyVictims {known messages : List VictimCacheinfo}
    (hknown : ∀ v ∈ known, v.isComplete = true)
    (hmessages : ∀ m ∈ messages, m.isFullyDeduped = false) :
    ∃ known', VictimSyncset.applyVictims known messages = some known' := by
  obtain ⟨known', h, -⟩ := KeyedList.applyAll_isSome
    (P := fun known : List VictimCacheinfo => ∀ v ∈ known, v.isComplete = true)
    (Q := fun m : VictimCacheinfo => m.isFullyDeduped = false)
    (fun _ _ hknown hmessage => exists_applyVictim hknown hmessage) hknown hmessages
  exact ⟨known', h⟩

theorem exists_applyDirinfos {known messages : List (Key × DirinfoSet)}
    (hknown : CompleteDirinfos known) (hmessages : ∀ m ∈ messages, m.2.isFullyCompressed = false) :
    ∃ known', VictimSyncset.applyDirinfos known messages = some known' := by
  have hstep : ∀ known message, CompleteDirinfos known →
      VictimSyncset.ApplicableDirinfo message → ∃ known',
      VictimSyncset.applyDirinfo known message = some known' ∧ CompleteDirinfos known' := by
    intro known message hknown hmessage
    obtain ⟨known', h, hcomplete, -⟩ := VictimSyncset.applyDirinfo_spec hknown hmessage
    exact ⟨known', h, hcomplete⟩
  obtain ⟨known', h, -⟩ := KeyedList.applyAll_isSome hstep hknown
    fun m hm => .inr (hmessages m hm)
  exact ⟨known', h⟩

theorem exists_compress {prev : VictimSyncset} (ht : t.MembersComplete)
    (hprev : prev.MembersComplete) (h : Compressible t.toObject prev.toObject) :
    ∃ c, SyncsetObject.compress isAssert t.toObject prev.toObject = some c := by
  have hcurrentComplete : t.isComplete = true :=
    some.inj (t.isComplete_toObject.symm.trans h.current_complete)
  have hprevComplete : prev.isComplete = true :=
    some.inj (prev.isComplete_toObject.symm.trans h.prev_complete)
  obtain ⟨c, hc, -⟩ := VictimSyncset.compress_spec (ht.allComplete hcurrentComplete)
    (hprev.allComplete hprevComplete) h.seqnum h.limit
  exact ⟨_, by rw [VictimSyncset.compress_toObject _ ht hprev, hc]; rfl⟩

theorem exists_recover {existing : VictimSyncset} (ht : t.MembersComplete)
    (hexisting : existing.MembersComplete) (h : Recoverable t.toObject existing.toObject) :
    ∃ r, SyncsetObject.recover isAssert t.toObject existing.toObject = some r ∧
      r.isComplete = some true := by
  have hcompressed : t.isCompressed = true :=
    some.inj (t.isCompressed_toObject.symm.trans h.is_compressed)
  have hcomplete : existing.isComplete = true :=
    some.inj (existing.isComplete_toObject.symm.trans h.existing_complete)
  have hall := hexisting.allComplete hcomplete
  have hmargin : t.PartCompressed .cacheMarginBytes → ∃ bytes,
      VictimSyncset.applyCacheMarginDelta existing.cacheMarginBytes t.cacheMarginDeltaBytes =
        some bytes := by
    intro hpart
    refine h.margin _ ?_
    rw [VictimSyncset.getCacheMarginBytesOrDelta_toObject]
    exact congrArg some (if_pos hpart)
  have hvictims : ∀ m ∈ t.localSyncedVictims, m.isFullyDeduped = false := by
    intro m hm
    have hfully := h.victims m.toObject (List.mem_map_of_mem hm)
    rw [isFullyDeduped_toObject] at hfully
    exact some.inj hfully
  obtain ⟨r, hr, hrecover⟩ := VictimSyncset.recover_spec hall hcompressed h.seqnum h.limit hmargin
    (fun _ => exists_applyVictims hall.victims hvictims)
    (fun _ => exists_applyDirinfos hall.dirinfos h.dirinfos)
  refine ⟨r.toObject, ?_, ?_⟩
  · rw [VictimSyncset.recover_toObject _ ht hexisting, hr]
    rfl
  · rw [VictimSyncset.isComplete_toObject, hrecover.complete]

theorem wellFormed_toObject (ht : t.MembersComplete) : t.toObject.WellFormed isAssert where
  marked part := existsUnique_marks (marks_toObject t part)
  synced_empty := t.synced_nil_toObject
  beaconed_empty := t.empty_toObject.2
  spare := spare_widen _
  kind := by
    refine ⟨_, t.isCompressed_toObject, ?_, isCompressed_iff_marks t⟩
    rw [VictimSyncset.isComplete_toObject, VictimSyncset.isComplete_eq_not_isCompressed]
  margin := by
    refine ⟨_, t.getCacheMarginBytesOrDelta_toObject, ?_⟩
    rw [show cacheMarginBytesDeltaMask = partMask .cacheMarginBytes from rfl, complete_toObject,
      VictimSyncset.getCacheMarginBytesOrDelta, VictimSyncset.PartCompressed]
    split <;> simp [*]
  synced := by
    refine ⟨_, VictimSyncset.getLocalSyncedVictims_toObject isAssert ht,
      VictimSyncset.getLocalSyncedVictimsPtr_toObject isAssert ht, ?_⟩
    rw [show localSyncedVictimsDedupMask = partMask .localSyncedVictims from rfl,
      complete_toObject]
    exact decide_eq_true_iff
  beaconed := by
    refine ⟨_, VictimSyncset.getLocalBeaconedVictims_toObject isAssert ht,
      VictimSyncset.getLocalBeaconedVictimsPtr_toObject isAssert ht, ?_⟩
    rw [show localBeaconedVictimsDedupMask = partMask .localBeaconedVictims from rfl,
      complete_toObject]
    exact decide_eq_true_iff
  answers := by simp
  setters := by
    intro setter hvictims hcomplete hallowed
    exact (setter.apply_toObject ht (fun v hv => (hvictims v hv).represented) hcomplete).1 hallowed
  compress := by
    intro prev hprev h
    obtain ⟨p, hp, rfl⟩ := hprev.represented
    exact exists_compress ht hp h
  recover := by
    intro existing hexisting h
    obtain ⟨e, he, rfl⟩ := hexisting.represented
    exact exists_recover ht he h
  transmission := by
    intro hrange hsize
    have hlimit := hsize _ t.getVictimSyncsetPayloadSize_toObject
    exact ⟨t.wire, t.received.toObject, rfl, fun S sink => t.emits_toObject sink,
      fun S source => VictimSyncset.parses_toObject source
        (VictimSyncset.inRange_of_toObject hrange hlimit)⟩

end OfModel

end SyncsetObject

def Object.WellFormed (isAssert : Bool) : Object → Prop
  | .cacheinfo v => v.WellFormed isAssert
  | .syncset s => s.WellFormed isAssert

/-- Every produced object is well formed: its parts are marked in one way each, its kind and its
getters follow the marks, and its methods do not abort. -/
theorem Produced.bitmap_wellFormed (h : Produced isAssert o) : o.WellFormed isAssert := by
  have hrepresented := h.represented
  cases o with
  | cacheinfo v =>
    obtain ⟨t, rfl⟩ := hrepresented
    exact CacheinfoObject.wellFormed_toObject t
  | syncset s =>
    obtain ⟨t, ht, rfl⟩ := hrepresented
    exact SyncsetObject.wellFormed_toObject ht

/-! ## Examples -/

namespace SyncsetObject

/-- A complete syncset without victims. -/
def withMargin (seqnum cacheMarginBytes : Nat) : SyncsetObject :=
  { createEmpty seqnum false with cacheMarginBytes := cacheMarginBytes }

end SyncsetObject

/-- Two more free bytes make a compressed syncset. -/
theorem bitmap_wellFormed_compressed : ∃ c,
    SyncsetObject.compress true (.withMargin 1 100) (.withMargin 0 98) = some c ∧
    c.compressedBitmap = 0b00101011#8 ∧ (Object.syncset c).WellFormed true := by
  have hproduced : ∀ seqnum bytes, Produced true (.syncset (.withMargin seqnum bytes)) := by
    intro seqnum bytes
    exact @Produced.create true seqnum false bytes [] [] _ (by simp) (by simp)
      (by simp [CompleteDirinfos]) rfl
  refine ⟨_, rfl, rfl, ?_⟩
  exact Produced.bitmap_wellFormed (.compress (hproduced 1 100) (hproduced 0 98) rfl)

/-- The cacheinfo of an object without bytes. -/
def smallCacheinfo : CacheinfoObject := .create ⟨[]⟩ 0 0 0 0 0

/-- A complete syncset with a victim. -/
def usedSyncset : SyncsetObject where
  compressedBitmap := 0b00100000#8
  seqnum := 0
  isEnforceComplete := false
  cacheMarginBytes := 0
  cacheMarginDeltaBytes := 0
  localSyncedVictims := [smallCacheinfo]
  localBeaconedVictims := []

/-- A set of changes. -/
def changedDirinfos : DirinfoSet := (DirinfoSet.ofList []).setNewDelta [⟨1⟩]

/-- What is left to the callers: a default-constructed object answers nothing, a stale cacheinfo is
neither complete nor deduplicated, a syncset to which a set of changes is pushed is complete and its
getter aborts, and an object that had victims keeps them when an empty syncset is read into it. -/
theorem bitmap_not_wellFormed :
    (CacheinfoObject.invalid.isComplete = none ∧ SyncsetObject.invalid.isComplete = none) ∧
    (∃ v, smallCacheinfo.markStale = some v ∧ v.isComplete = some false ∧
      v.isDeduped = some false) ∧
    (∃ s, (SyncsetObject.createEmpty 0 false).pushLocalBeaconedVictimForComplete ⟨[]⟩
        changedDirinfos = some s ∧ s.isComplete = some true ∧
      s.getLocalBeaconedVictims true = none) ∧
    SyncsetObject.create true 0 false 0 [smallCacheinfo] [] = some usedSyncset ∧
    ∃ t, ReadBack (SyncsetObject.createEmpty 1 false).getVictimSyncsetPayloadSize
        (fun _ sink => (SyncsetObject.createEmpty 1 false).serializeTo sink)
        (fun _ source => SyncsetObject.deserializeInto source usedSyncset) t ∧
      HasBits t.compressedBitmap SyncsetObject.localSyncedVictimsEmptyMask ∧
      t.localSyncedVictims = [smallCacheinfo] := by
  refine ⟨⟨rfl, rfl⟩, ⟨_, rfl, rfl, rfl⟩, ⟨_, rfl, rfl, rfl⟩, rfl,
    { SyncsetObject.createEmpty 1 false with localSyncedVictims := [smallCacheinfo] }, ?_, rfl, rfl⟩
  exact ⟨_, _, File.sink, File.source, ([], 0), _, (_, 0), _, _, [], 18, rfl, by omega, trivial,
    rfl, rfl, (List.append_nil _).symm, rfl⟩

end Covered.Victim
